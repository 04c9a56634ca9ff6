import AukiSdk.Foundation.Checks
import AukiSdk.Foundation.SparseMap

/-!
# The voxel map accumulator

`VoxelMapAccumulator` replays map updates into sparse voxel evidence.
-/

namespace AukiSdk.Maps

open AukiSdk.Foundation
open Std (ExtTreeMap ExtTreeSet TransOrd LawfulEqOrd TransCmp)

/-- A floating point number, without rounding. -/
inductive Number where
  | finite (value : ℚ)
  | nonFinite
  deriving DecidableEq

def Number.isFinite : Number → Bool
  | .finite _ => true
  | .nonFinite => false

/-- The value of a number that was checked to be finite. -/
def Number.value : Number → ℚ
  | .finite value => value
  | .nonFinite => 0

structure SemanticDelta where
  classId : ℕ
  evidenceDelta : Number
  deriving DecidableEq

structure ColorEvidenceDelta where
  redSumDelta : Number
  greenSumDelta : Number
  blueSumDelta : Number
  weightDelta : Number
  deriving DecidableEq

structure VoxelDelta where
  x : ℕ
  y : ℕ
  z : ℕ
  occupancyDelta : Number
  semantics : List SemanticDelta
  color : Option ColorEvidenceDelta
  deriving DecidableEq

structure VoxelChunkUpdate where
  chunkX : ℤ
  chunkY : ℤ
  chunkZ : ℤ
  voxels : List VoxelDelta
  deriving DecidableEq

structure SemanticEvidence where
  classId : ℕ
  evidence : Number
  deriving DecidableEq

structure ColorEvidence where
  redSum : Number
  greenSum : Number
  blueSum : Number
  weight : Number
  deriving DecidableEq

structure VoxelSnapshot where
  x : ℕ
  y : ℕ
  z : ℕ
  occupancyEvidence : Number
  semantics : List SemanticEvidence
  color : Option ColorEvidence
  deriving DecidableEq

structure VoxelChunkSnapshot where
  chunkX : ℤ
  chunkY : ℤ
  chunkZ : ℤ
  voxels : List VoxelSnapshot
  deriving DecidableEq

structure VoxelMapCheckpoint where
  voxelChunks : List VoxelChunkSnapshot
  deriving DecidableEq

structure MapUpdate where
  voxelChunks : List VoxelChunkUpdate
  checkpoint : Option VoxelMapCheckpoint
  deriving DecidableEq

structure ChunkCoord where
  x : ℤ
  y : ℤ
  z : ℤ
  deriving DecidableEq

structure LocalVoxelCoord where
  x : ℕ
  y : ℕ
  z : ℕ
  deriving DecidableEq

instance : Ord ChunkCoord :=
  ⟨compareLex (compareOn ChunkCoord.x) (compareLex (compareOn ChunkCoord.y)
    (compareOn ChunkCoord.z))⟩

instance : Ord LocalVoxelCoord :=
  ⟨compareLex (compareOn LocalVoxelCoord.x) (compareLex (compareOn LocalVoxelCoord.y)
    (compareOn LocalVoxelCoord.z))⟩

instance : TransOrd ChunkCoord :=
  inferInstanceAs (TransCmp (compareLex (compareOn ChunkCoord.x)
    (compareLex (compareOn ChunkCoord.y) (compareOn ChunkCoord.z))))

instance : TransOrd LocalVoxelCoord :=
  inferInstanceAs (TransCmp (compareLex (compareOn LocalVoxelCoord.x)
    (compareLex (compareOn LocalVoxelCoord.y) (compareOn LocalVoxelCoord.z))))

instance : LawfulEqOrd ChunkCoord where
  eq_of_compare {left right} heq := by
    have hfields : (compare left.x right.x).then
        ((compare left.y right.y).then (compare left.z right.z)) = .eq := heq
    simp only [Ordering.then_eq_eq, compare_eq_iff_eq] at hfields
    cases left
    cases right
    simpa using hfields

instance : LawfulEqOrd LocalVoxelCoord where
  eq_of_compare {left right} heq := by
    have hfields : (compare left.x right.x).then
        ((compare left.y right.y).then (compare left.z right.z)) = .eq := heq
    simp only [Ordering.then_eq_eq, compare_eq_iff_eq] at hfields
    cases left
    cases right
    simpa using hfields

structure AccumulatedColor where
  redSum : ℚ
  greenSum : ℚ
  blueSum : ℚ
  weight : ℚ
  deriving DecidableEq

structure VoxelEvidence where
  occupancy : ℚ
  semantics : ExtTreeMap ℕ ℚ
  color : Option AccumulatedColor
  deriving DecidableEq

/-- `VoxelEvidence::default`. -/
def VoxelEvidence.empty : VoxelEvidence := ⟨0, ∅, none⟩

structure ChunkState where
  revision : UInt64
  voxels : ExtTreeMap LocalVoxelCoord VoxelEvidence
  deriving DecidableEq

structure RegistryRef where
  peerId : String
  id : String
  hash : String
  deriving DecidableEq

inductive VoxelValueModel where
  | additiveOccupancyEvidence
  deriving DecidableEq

inductive VoxelColorModel where
  | additiveLinearRgbEvidence
  deriving DecidableEq

structure VoxelMap where
  frame : RegistryRef
  voxelSizeM : Number
  chunkDimension : ℕ
  valueModel : VoxelValueModel
  colorModel : Option VoxelColorModel
  semanticClasses : List String
  deriving DecidableEq

structure VoxelMapAccumulator where
  map : RegistryRef
  contract : VoxelMap
  revision : UInt64
  chunks : ExtTreeMap ChunkCoord ChunkState
  deriving DecidableEq

structure ApplySummary where
  revision : UInt64
  changedChunks : List ChunkCoord
  voxelDeltasApplied : ℕ
  deriving DecidableEq

inductive AccumulatorError where
  | invalidContract
  | mapIdentityMismatch
  | unsupportedValueModel
  | voxelOutsideChunk (x y z dimension : ℕ)
  | nonFiniteEvidence
  | unexpectedColorEvidence
  | nonFiniteColorEvidence
  | invalidColorWeight
  | invalidColorChannelSum
  | unknownSemanticClass (classId classCount : ℕ)
  | invalidViewerThreshold
  | mixedCheckpointAndDeltas
  | duplicateCheckpointChunk (x y z : ℤ)
  | duplicateCheckpointVoxel (x y z : ℕ)
  | duplicateCheckpointSemanticClass (classId : ℕ)
  deriving DecidableEq

/-- `VoxelMapAccumulator::new`; `registryHash` is that of the registry entry. -/
def VoxelMapAccumulator.new (registryHash : String → String → VoxelMap → String)
    (map : RegistryRef) (contract : VoxelMap) : Except AccumulatorError VoxelMapAccumulator :=
  if contract.voxelSizeM.isFinite = false ∨ contract.voxelSizeM.value ≤ 0 ∨
      contract.chunkDimension = 0 then
    .error .invalidContract
  else if contract.valueModel ≠ .additiveOccupancyEvidence then
    .error .unsupportedValueModel
  else if (⟨map.peerId, map.id, registryHash map.peerId map.id contract⟩ : RegistryRef) ≠ map then
    .error .mapIdentityMismatch
  else
    .ok ⟨map, contract, 0, ∅⟩

def validateColorComponents (sums : List Number) (weight : Number) (allowEmpty : Bool) :
    Except AccumulatorError Unit :=
  Checks.all
    [Checks.require (weight.isFinite = true ∧ ∀ sum ∈ sums, sum.isFinite = true)
      .nonFiniteColorEvidence,
     Checks.require (¬ (weight.value < 0 ∨ (allowEmpty = false ∧ weight.value = 0)))
      .invalidColorWeight,
     Checks.require (∀ sum ∈ sums, ¬ (sum.value < 0 ∨ weight.value < sum.value))
      .invalidColorChannelSum]

section Contract

variable (contract : VoxelMap)

def validateColorDelta (color : Option ColorEvidenceDelta) : Except AccumulatorError Unit :=
  Checks.optional color fun color => Checks.all
    [Checks.require (contract.colorModel = some .additiveLinearRgbEvidence)
      .unexpectedColorEvidence,
     validateColorComponents [color.redSumDelta, color.greenSumDelta, color.blueSumDelta]
      color.weightDelta true]

def validateColorCheckpoint (color : Option ColorEvidence) : Except AccumulatorError Unit :=
  Checks.optional color fun color => Checks.all
    [Checks.require (contract.colorModel = some .additiveLinearRgbEvidence)
      .unexpectedColorEvidence,
     validateColorComponents [color.redSum, color.greenSum, color.blueSum] color.weight false]

def checkInsideChunk (x y z : ℕ) : Except AccumulatorError Unit :=
  Checks.require (x < contract.chunkDimension ∧ y < contract.chunkDimension ∧
      z < contract.chunkDimension)
    (.voxelOutsideChunk x y z contract.chunkDimension)

def checkSemanticClass (classId : ℕ) : Except AccumulatorError Unit :=
  Checks.require (classId < contract.semanticClasses.length)
    (.unknownSemanticClass classId contract.semanticClasses.length)

def checkFiniteEvidence (evidence : Number) : Except AccumulatorError Unit :=
  Checks.require (evidence.isFinite = true) .nonFiniteEvidence

/-- The checks of one voxel delta. -/
def validateVoxelDelta (voxel : VoxelDelta) : Except AccumulatorError Unit :=
  Checks.all
    [checkInsideChunk contract voxel.x voxel.y voxel.z,
     checkFiniteEvidence voxel.occupancyDelta,
     Checks.all (voxel.semantics.map fun semantic =>
      Checks.all [checkSemanticClass contract semantic.classId,
        checkFiniteEvidence semantic.evidenceDelta]),
     validateColorDelta contract voxel.color]

/-- The checks of one voxel of a checkpoint, after those of its coordinate. -/
def validateVoxelSnapshot (voxel : VoxelSnapshot) : Except AccumulatorError Unit :=
  Checks.all
    [checkFiniteEvidence voxel.occupancyEvidence,
     Checks.distinct SemanticEvidence.classId
      (fun semantic => checkSemanticClass contract semantic.classId)
      (fun semantic => .duplicateCheckpointSemanticClass semantic.classId)
      (fun semantic => checkFiniteEvidence semantic.evidence) [] voxel.semantics,
     validateColorCheckpoint contract voxel.color]

def VoxelSnapshot.coord (voxel : VoxelSnapshot) : LocalVoxelCoord := ⟨voxel.x, voxel.y, voxel.z⟩

def VoxelChunkSnapshot.coord (chunk : VoxelChunkSnapshot) : ChunkCoord :=
  ⟨chunk.chunkX, chunk.chunkY, chunk.chunkZ⟩

/-- The checks of a checkpoint. -/
def validateCheckpoint (checkpoint : VoxelMapCheckpoint) : Except AccumulatorError Unit :=
  Checks.distinct VoxelChunkSnapshot.coord (fun _ => .ok ())
    (fun chunk => .duplicateCheckpointChunk chunk.chunkX chunk.chunkY chunk.chunkZ)
    (fun chunk => Checks.distinct VoxelSnapshot.coord
      (fun voxel => checkInsideChunk contract voxel.x voxel.y voxel.z)
      (fun voxel => .duplicateCheckpointVoxel voxel.x voxel.y voxel.z)
      (validateVoxelSnapshot contract) [] chunk.voxels)
    [] checkpoint.voxelChunks

def validateUpdate (update : MapUpdate) : Except AccumulatorError Unit :=
  Checks.all
    [Checks.require (¬ (update.checkpoint.isSome = true ∧ update.voxelChunks ≠ []))
      .mixedCheckpointAndDeltas,
     Checks.all (update.voxelChunks.map fun chunk =>
      Checks.all (chunk.voxels.map (validateVoxelDelta contract))),
     Checks.optional update.checkpoint (validateCheckpoint contract)]

end Contract

def VoxelDelta.coord (delta : VoxelDelta) : LocalVoxelCoord := ⟨delta.x, delta.y, delta.z⟩

def VoxelChunkUpdate.coord (chunk : VoxelChunkUpdate) : ChunkCoord :=
  ⟨chunk.chunkX, chunk.chunkY, chunk.chunkZ⟩

def VoxelDelta.changesValue (delta : VoxelDelta) : Bool :=
  decide (delta.occupancyDelta.value ≠ 0) ||
    delta.semantics.any (fun semantic => decide (semantic.evidenceDelta.value ≠ 0)) ||
    delta.color.any fun color => decide (color.weightDelta.value ≠ 0)

def AccumulatedColor.fromDelta (color : ColorEvidenceDelta) : AccumulatedColor :=
  ⟨color.redSumDelta.value, color.greenSumDelta.value, color.blueSumDelta.value,
    color.weightDelta.value⟩

def AccumulatedColor.fromCheckpoint (color : ColorEvidence) : AccumulatedColor :=
  ⟨color.redSum.value, color.greenSum.value, color.blueSum.value, color.weight.value⟩

def AccumulatedColor.addDelta (accumulated : AccumulatedColor) (color : ColorEvidenceDelta) :
    AccumulatedColor :=
  ⟨accumulated.redSum + color.redSumDelta.value, accumulated.greenSum + color.greenSumDelta.value,
    accumulated.blueSum + color.blueSumDelta.value,
    accumulated.weight + color.weightDelta.value⟩

/-- Evidence for a class is dropped when it is zero. -/
def addSemantic (semantics : ExtTreeMap ℕ ℚ) (semantic : SemanticDelta) : ExtTreeMap ℕ ℚ :=
  SparseMap.storeNonzero 0 (· + semantic.evidenceDelta.value) semantic.classId semantics

def addColor (accumulated : Option AccumulatedColor) : Option ColorEvidenceDelta →
    Option AccumulatedColor
  | none => accumulated
  | some color =>
    match accumulated with
    | some accumulated => some (accumulated.addDelta color)
    | none => some (AccumulatedColor.fromDelta color)

/-- A voxel after one delta that changes a value. -/
def VoxelEvidence.add (voxel : VoxelEvidence) (delta : VoxelDelta) : VoxelEvidence :=
  ⟨voxel.occupancy + delta.occupancyDelta.value, delta.semantics.foldl addSemantic voxel.semantics,
    addColor voxel.color delta.color⟩

/-- The chunks, the changed coordinates and the number of deltas so far. -/
structure Progress where
  chunks : ExtTreeMap ChunkCoord ChunkState
  changed : ExtTreeSet ChunkCoord
  deltaCount : ℕ

variable (revision : UInt64)

/-- One delta of the loop; `revision` is the one before the update. -/
def Progress.applyDelta (coord : ChunkCoord) (progress : Progress) (delta : VoxelDelta) :
    Progress :=
  if delta.changesValue = false then
    { progress with deltaCount := progress.deltaCount + 1 }
  else
    { chunks := SparseMap.store ⟨revision, ∅⟩ (fun chunk =>
        { chunk with
          voxels := SparseMap.store .empty (·.add delta) delta.coord chunk.voxels }) coord
        progress.chunks
      changed := progress.changed.insert coord
      deltaCount := progress.deltaCount + 1 }

def Progress.applyChunk (progress : Progress) (chunk : VoxelChunkUpdate) :
    Progress :=
  chunk.voxels.foldl (Progress.applyDelta revision chunk.coord) progress

/-- The voxel has no evidence. -/
def VoxelEvidence.isClear (voxel : VoxelEvidence) : Bool :=
  decide (voxel.occupancy = 0) && voxel.semantics.isEmpty && voxel.color.isNone

/-- Voxels without evidence are removed, and then an empty chunk. -/
def pruneChunk (chunks : ExtTreeMap ChunkCoord ChunkState) (coord : ChunkCoord) :
    ExtTreeMap ChunkCoord ChunkState :=
  chunks.alter coord fun found =>
    found.bind fun chunk =>
      let voxels := chunk.voxels.filter fun _ voxel => !voxel.isClear
      if voxels.isEmpty then none else some ⟨revision, voxels⟩

/-- The delta path of `apply`. -/
def VoxelMapAccumulator.applyDeltas (accumulator : VoxelMapAccumulator)
    (voxelChunks : List VoxelChunkUpdate) : VoxelMapAccumulator × ApplySummary :=
  let progress := voxelChunks.foldl (Progress.applyChunk accumulator.revision)
    ⟨accumulator.chunks, ∅, 0⟩
  if progress.changed.isEmpty then
    ({ accumulator with chunks := progress.chunks },
      ⟨accumulator.revision, [], progress.deltaCount⟩)
  else
    let revision := accumulator.revision + 1
    ({ accumulator with
        revision := revision
        chunks := progress.changed.toList.foldl (pruneChunk revision) progress.chunks },
      ⟨revision, progress.changed.toList, progress.deltaCount⟩)

/-- The voxel of a snapshot. -/
def VoxelSnapshot.evidence (snapshot : VoxelSnapshot) : VoxelEvidence :=
  ⟨snapshot.occupancyEvidence.value,
    SparseMap.collect (snapshot.semantics.filterMap fun semantic =>
      if semantic.evidence.value ≠ 0 then some (semantic.classId, semantic.evidence.value)
      else none),
    snapshot.color.map AccumulatedColor.fromCheckpoint⟩

/-- Snapshots without evidence are left out. -/
def VoxelChunkSnapshot.chunkVoxels (chunk : VoxelChunkSnapshot) :
    ExtTreeMap LocalVoxelCoord VoxelEvidence :=
  SparseMap.collect (chunk.voxels.filterMap fun snapshot =>
    if snapshot.evidence.isClear then none else some (snapshot.coord, snapshot.evidence))

/-- The chunks that replace the state; empty ones are left out. -/
def VoxelMapCheckpoint.replacement (checkpoint : VoxelMapCheckpoint) (revision : UInt64) :
    ExtTreeMap ChunkCoord ChunkState :=
  SparseMap.collect (checkpoint.voxelChunks.filterMap fun chunk =>
    if chunk.chunkVoxels.isEmpty then none else some (chunk.coord, ⟨revision, chunk.chunkVoxels⟩))

def VoxelMapAccumulator.applyCheckpoint (accumulator : VoxelMapAccumulator)
    (checkpoint : VoxelMapCheckpoint) : VoxelMapAccumulator × ApplySummary :=
  let revision := accumulator.revision + 1
  let replacement := checkpoint.replacement revision
  ({ accumulator with revision := revision, chunks := replacement },
    ⟨revision, (ExtTreeSet.ofList (accumulator.chunks.keys ++ replacement.keys)).toList,
      (checkpoint.voxelChunks.map fun chunk => chunk.voxels.length).sum⟩)

def VoxelMapAccumulator.apply (accumulator : VoxelMapAccumulator) (update : MapUpdate) :
    VoxelMapAccumulator × Except AccumulatorError ApplySummary :=
  match validateUpdate accumulator.contract update with
  | .error error => (accumulator, .error error)
  | .ok () =>
    let result :=
      match update.checkpoint with
      | some checkpoint => accumulator.applyCheckpoint checkpoint
      | none => accumulator.applyDeltas update.voxelChunks
    (result.1, .ok result.2)

def AccumulatedColor.checkpoint (color : AccumulatedColor) : ColorEvidence :=
  ⟨.finite color.redSum, .finite color.greenSum, .finite color.blueSum, .finite color.weight⟩

def VoxelEvidence.snapshot (local_ : LocalVoxelCoord) (voxel : VoxelEvidence) : VoxelSnapshot :=
  { x := local_.x
    y := local_.y
    z := local_.z
    occupancyEvidence := .finite voxel.occupancy
    semantics := voxel.semantics.toList.map fun semantic => ⟨semantic.1, .finite semantic.2⟩
    color := voxel.color.map AccumulatedColor.checkpoint }

def ChunkState.snapshot (coord : ChunkCoord) (chunk : ChunkState) : VoxelChunkSnapshot :=
  { chunkX := coord.x
    chunkY := coord.y
    chunkZ := coord.z
    voxels := chunk.voxels.toList.map fun stored => stored.2.snapshot stored.1 }

def VoxelMapAccumulator.checkpointUpdate (accumulator : VoxelMapAccumulator) : MapUpdate :=
  ⟨[], some ⟨accumulator.chunks.toList.map fun stored => stored.2.snapshot stored.1⟩⟩

structure SemanticEvidenceSnapshot where
  classId : ℕ
  evidence : ℚ
  deriving DecidableEq

structure ViewerVoxel where
  coord : LocalVoxelCoord
  centerM : ℚ × ℚ × ℚ
  occupancyEvidence : ℚ
  linearRgb : Option (Number × Number × Number)
  semantics : List SemanticEvidenceSnapshot
  deriving DecidableEq

structure ViewerChunkSnapshot where
  coord : ChunkCoord
  revision : UInt64
  voxels : List ViewerVoxel
  deriving DecidableEq

structure ViewerSnapshot where
  revision : UInt64
  map : RegistryRef
  frame : RegistryRef
  voxelSizeM : Number
  chunkDimension : ℕ
  semanticClasses : List String
  chunks : List ViewerChunkSnapshot
  deriving DecidableEq

/-- `AccumulatedColor::linear_rgb`; a quotient by zero is not finite. -/
def AccumulatedColor.linearRgb (color : AccumulatedColor) : Number × Number × Number :=
  let channel : ℚ → Number := fun sum =>
    if color.weight = 0 then .nonFinite else .finite (max 0 (min 1 (sum / color.weight)))
  (channel color.redSum, channel color.greenSum, channel color.blueSum)

section Viewer

variable (accumulator : VoxelMapAccumulator)

def VoxelMapAccumulator.center (chunkAxis : ℤ) (localAxis : ℕ) : ℚ :=
  (chunkAxis * accumulator.contract.chunkDimension + localAxis + 1 / 2) *
    accumulator.contract.voxelSizeM.value

def VoxelMapAccumulator.viewerChunkFromState (coord : ChunkCoord) (chunk : ChunkState)
    (threshold : ℚ) : ViewerChunkSnapshot :=
  { coord := coord
    revision := chunk.revision
    voxels := (chunk.voxels.toList.filter fun stored =>
        decide (0 < stored.2.occupancy ∧ threshold ≤ stored.2.occupancy)).map fun stored =>
      { coord := stored.1
        centerM := (accumulator.center coord.x stored.1.x, accumulator.center coord.y stored.1.y,
          accumulator.center coord.z stored.1.z)
        occupancyEvidence := stored.2.occupancy
        linearRgb := stored.2.color.map AccumulatedColor.linearRgb
        semantics := stored.2.semantics.toList.map fun semantic => ⟨semantic.1, semantic.2⟩ } }

def validateThreshold : Number → Except AccumulatorError ℚ
  | .finite threshold => .ok threshold
  | .nonFinite => .error .invalidViewerThreshold

def VoxelMapAccumulator.viewerChunk (coord : ChunkCoord) (threshold : Number) :
    Except AccumulatorError (Option ViewerChunkSnapshot) :=
  (validateThreshold threshold).map fun threshold =>
    accumulator.chunks[coord]?.map fun chunk =>
      accumulator.viewerChunkFromState coord chunk threshold

def VoxelMapAccumulator.viewerSnapshot (threshold : Number) :
    Except AccumulatorError ViewerSnapshot :=
  (validateThreshold threshold).map fun threshold =>
    { revision := accumulator.revision
      map := accumulator.map
      frame := accumulator.contract.frame
      voxelSizeM := accumulator.contract.voxelSizeM
      chunkDimension := accumulator.contract.chunkDimension
      semanticClasses := accumulator.contract.semanticClasses
      chunks := (accumulator.chunks.toList.map fun stored =>
        accumulator.viewerChunkFromState stored.1 stored.2 threshold).filter fun chunk =>
          chunk.voxels ≠ [] }

end Viewer

end AukiSdk.Maps
