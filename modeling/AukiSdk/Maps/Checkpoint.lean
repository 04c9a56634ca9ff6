import AukiSdk.Maps.Replay

/-!
# Checkpoints

A checkpoint of a well-formed state is accepted and reproduces its contents.
-/

namespace AukiSdk.Maps

open AukiSdk.Foundation List
open Std (ExtTreeMap ExtTreeSet TransOrd LawfulEqOrd)

/-- The sums of a color lie between zero and its positive weight. -/
structure AccumulatedColor.Valid (contract : VoxelMap) (color : AccumulatedColor) : Prop where
  model : contract.colorModel = some .additiveLinearRgbEvidence
  weight : 0 ≤ color.weight
  red : 0 ≤ color.redSum ∧ color.redSum ≤ color.weight
  green : 0 ≤ color.greenSum ∧ color.greenSum ≤ color.weight
  blue : 0 ≤ color.blueSum ∧ color.blueSum ≤ color.weight

def IsInside (contract : VoxelMap) (place : LocalVoxelCoord) : Prop :=
  place.x < contract.chunkDimension ∧ place.y < contract.chunkDimension ∧
    place.z < contract.chunkDimension

structure VoxelEvidence.Valid (contract : VoxelMap) (place : LocalVoxelCoord)
    (voxel : VoxelEvidence) : Prop where
  inside : voxel ≠ .empty → IsInside contract place
  pruned : SparseMap.Pruned (0 : ℚ) voxel.semantics
  classes : ∀ (classId : ℕ) (evidence : ℚ), voxel.semantics[classId]? = some evidence →
    classId < contract.semanticClasses.length
  color : ∀ color ∈ voxel.color, color.Valid contract ∧ 0 < color.weight

theorem VoxelEvidence.valid_empty (contract : VoxelMap) (place : LocalVoxelCoord) :
    VoxelEvidence.empty.Valid contract place where
  inside hne := absurd rfl hne
  pruned := SparseMap.pruned_empty
  classes classId evidence hf := by
    rw [VoxelEvidence.empty, ExtTreeMap.getElem?_empty] at hf
    cases hf
  color color hcol := by cases hcol

structure VoxelMapAccumulator.Valid (accumulator : VoxelMapAccumulator) : Prop where
  sparse : IsSparse accumulator.chunks
  evidence : ∀ coord place,
    (evidenceAt accumulator.chunks coord place).Valid accumulator.contract place

variable {voxel : VoxelEvidence} {place : LocalVoxelCoord}

theorem evidenceAt_of_stored {chunks : Chunks} {coord : ChunkCoord} {chunk : ChunkState}
    (hchunk : chunks[coord]? = some chunk) (hvox : chunk.voxels[place]? = some voxel) :
    evidenceAt chunks coord place = voxel := by
  rw [evidenceAt, voxelsAt, hchunk, SparseMap.valueAt, Option.map_some, Option.getD_some, hvox]
  rfl

theorem validateColorComponents_eq_ok {red green blue weight : Number} {allowEmpty : Bool} :
    validateColorComponents [red, green, blue] weight allowEmpty = .ok () ↔
      (weight.isFinite = true ∧ red.isFinite = true ∧ green.isFinite = true ∧
        blue.isFinite = true) ∧
      (0 ≤ weight.value ∧ (allowEmpty = true ∨ weight.value ≠ 0)) ∧
      (0 ≤ red.value ∧ red.value ≤ weight.value) ∧
      (0 ≤ green.value ∧ green.value ≤ weight.value) ∧
      (0 ≤ blue.value ∧ blue.value ≤ weight.value) := by
  rw [validateColorComponents, Checks.all_eq_ok]
  simp only [forall_mem_cons, Checks.require_eq_ok, not_mem_nil, IsEmpty.forall_iff,
    implies_true, and_true, not_or, not_lt, not_and]
  cases allowEmpty with
  | true => simp
  | false => simp

/-- What validation says of a color delta. -/
structure ColorEvidenceDelta.Valid (contract : VoxelMap) (color : ColorEvidenceDelta) : Prop where
  model : contract.colorModel = some .additiveLinearRgbEvidence
  weight : 0 ≤ color.weightDelta.value
  red : 0 ≤ color.redSumDelta.value ∧ color.redSumDelta.value ≤ color.weightDelta.value
  green : 0 ≤ color.greenSumDelta.value ∧ color.greenSumDelta.value ≤ color.weightDelta.value
  blue : 0 ≤ color.blueSumDelta.value ∧ color.blueSumDelta.value ≤ color.weightDelta.value

/-- What validation says of a voxel delta. -/
structure VoxelDelta.Valid (contract : VoxelMap) (delta : VoxelDelta) : Prop where
  inside : IsInside contract delta.coord
  classes : ∀ semantic ∈ delta.semantics, semantic.classId < contract.semanticClasses.length
  color : ∀ color ∈ delta.color, color.Valid contract

variable {delta : VoxelDelta}

theorem VoxelDelta.valid_of_validate {contract : VoxelMap}
    (hvalid : validateVoxelDelta contract delta = .ok ()) : delta.Valid contract := by
  simp only [validateVoxelDelta, Checks.all_eq_ok, forall_mem_cons, forall_mem_map,
    checkInsideChunk, checkSemanticClass, Checks.require_eq_ok] at hvalid
  obtain ⟨hins, -, hcla, hcol, -⟩ := hvalid
  refine ⟨hins, fun semantic hsem => (hcla semantic hsem).1, ?_⟩
  intro color hf
  rw [validateColorDelta, Checks.optional_eq_ok] at hcol
  have hcks := hcol color hf
  simp only [Checks.all_eq_ok, forall_mem_cons, Checks.require_eq_ok,
    validateColorComponents_eq_ok] at hcks
  obtain ⟨hmod, ⟨-, hwei, hred, hgre, hblue⟩, -⟩ := hcks
  exact ⟨hmod, hwei.1, hred, hgre, hblue⟩

theorem mem_deltasAt {voxelChunks : List VoxelChunkUpdate} {coord : ChunkCoord}
    (hdel : delta ∈ deltasAt voxelChunks coord place) :
    delta.coord = place ∧ ∃ chunk ∈ voxelChunks, delta ∈ chunk.voxels := by
  rw [deltasAt, mem_filterMap] at hdel
  obtain ⟨placed, hpla, hsome⟩ := hdel
  split at hsome
  · rename_i hhere
    cases hsome
    rw [placedDeltas, mem_flatMap] at hpla
    obtain ⟨chunk, hchunk, hm⟩ := hpla
    obtain ⟨found, hf, rfl⟩ := mem_map.mp hm
    exact ⟨hhere.2.2, chunk, hchunk, hf⟩
  · cases hsome

theorem VoxelMapAccumulator.Accepts.delta_valid {accumulator : VoxelMapAccumulator}
    {update : MapUpdate} (hvalid : accumulator.Accepts update) {coord : ChunkCoord}
    (hdel : delta ∈ deltasAt update.voxelChunks coord place) :
    delta.Valid accumulator.contract := by
  obtain ⟨-, chunk, hchunk, hm⟩ := mem_deltasAt hdel
  simp only [VoxelMapAccumulator.Accepts, validateUpdate, Checks.all_eq_ok, forall_mem_cons,
    forall_mem_map] at hvalid
  exact VoxelDelta.valid_of_validate (hvalid.2.1 chunk hchunk delta hm)

section Adding

variable {contract : VoxelMap}

theorem pruned_foldl_addSemantic (deltas : List SemanticDelta) {semantics : ExtTreeMap ℕ ℚ}
    (hpru : SparseMap.Pruned (0 : ℚ) semantics) :
    SparseMap.Pruned (0 : ℚ) (deltas.foldl addSemantic semantics) := by
  induction deltas generalizing semantics with
  | nil => exact hpru
  | cons delta rest ih => exact ih hpru.storeNonzero

theorem classes_foldl_addSemantic {count : ℕ} (deltas : List SemanticDelta)
    (hdel : ∀ delta ∈ deltas, delta.classId < count) {semantics : ExtTreeMap ℕ ℚ}
    (hcla : ∀ (classId : ℕ) (evidence : ℚ), semantics[classId]? = some evidence →
      classId < count) (classId : ℕ) (evidence : ℚ)
    (hf : (deltas.foldl addSemantic semantics)[classId]? = some evidence) :
    classId < count := by
  induction deltas generalizing semantics with
  | nil => exact hcla classId evidence hf
  | cons delta rest ih =>
    rw [forall_mem_cons] at hdel
    apply ih hdel.2 _ hf
    intro other value ho
    by_cases hsm : other = delta.classId
    · rw [hsm]
      exact hdel.1
    · rw [addSemantic, SparseMap.getElem?_storeNonzero_of_ne hsm] at ho
      exact hcla other value ho

theorem AccumulatedColor.valid_addColor {color : Option AccumulatedColor}
    (hcol : ∀ found ∈ color, found.Valid contract) {delta : Option ColorEvidenceDelta}
    (hdel : ∀ found ∈ delta, found.Valid contract) :
    ∀ found ∈ addColor color delta, found.Valid contract := by
  intro found hf
  cases delta with
  | none => exact hcol found hf
  | some delta =>
    have hvalid := hdel delta rfl
    cases color with
    | none =>
      cases hf
      exact { hvalid with }
    | some color =>
      cases hf
      have hbeg := hcol color rfl
      exact ⟨hvalid.model, add_nonneg hbeg.weight hvalid.weight,
        ⟨add_nonneg hbeg.red.1 hvalid.red.1, add_le_add hbeg.red.2 hvalid.red.2⟩,
        ⟨add_nonneg hbeg.green.1 hvalid.green.1, add_le_add hbeg.green.2 hvalid.green.2⟩,
        ⟨add_nonneg hbeg.blue.1 hvalid.blue.1, add_le_add hbeg.blue.2 hvalid.blue.2⟩⟩

/-- The weight of a color, zero where there is none. -/
def weightOf (color : Option AccumulatedColor) : ℚ :=
  (color.map AccumulatedColor.weight).getD 0

def deltaWeight (delta : VoxelDelta) : ℚ :=
  (delta.color.map fun color => color.weightDelta.value).getD 0

theorem weightOf_addColor (color : Option AccumulatedColor) (delta : VoxelDelta) :
    weightOf (addColor color delta.color) = weightOf color + deltaWeight delta := by
  rw [deltaWeight]
  cases delta.color with
  | none => exact (add_zero _).symm
  | some found =>
    cases color with
    | none => exact (zero_add _).symm
    | some color => rfl

theorem weightOf_foldl_add (deltas : List VoxelDelta) (voxel : VoxelEvidence) :
    weightOf (deltas.foldl VoxelEvidence.add voxel).color =
      weightOf voxel.color + (deltas.map deltaWeight).sum := by
  induction deltas generalizing voxel with
  | nil => exact (add_zero _).symm
  | cons delta rest ih =>
    rw [foldl_cons, ih, map_cons, sum_cons, ← add_assoc, VoxelEvidence.add, weightOf_addColor]

theorem isSome_foldl_add (deltas : List VoxelDelta) (voxel : VoxelEvidence)
    (hcol : (deltas.foldl VoxelEvidence.add voxel).color.isSome = true) :
    voxel.color.isSome = true ∨ ∃ delta ∈ deltas, delta.color.isSome = true := by
  induction deltas generalizing voxel with
  | nil => exact Or.inl hcol
  | cons delta rest ih =>
    rcases ih (voxel.add delta) hcol with hfst | ⟨found, hf, hsome⟩
    · cases hdel : delta.color with
      | none =>
        left
        rw [VoxelEvidence.add, hdel] at hfst
        exact hfst
      | some color =>
        right
        exact ⟨delta, mem_cons_self, by rw [hdel]; rfl⟩
    · exact Or.inr ⟨found, mem_cons_of_mem _ hf, hsome⟩

theorem deltaWeight_nonneg {delta : VoxelDelta} (hdel : delta.Valid contract) :
    0 ≤ deltaWeight delta := by
  rw [deltaWeight]
  cases hcol : delta.color with
  | none => exact le_refl 0
  | some color => exact (hdel.color color hcol).weight

theorem weight_pos_foldl_add {deltas : List VoxelDelta}
    (hdes : ∀ delta ∈ deltas, delta.Valid contract) {voxel : VoxelEvidence}
    (hvox : ∀ color ∈ voxel.color, 0 < color.weight)
    (hfst : (∃ delta ∈ deltas, delta.color.isSome = true) → voxel.color.isSome = true ∨
      ∃ delta ∈ deltas, ∃ color ∈ delta.color, color.weightDelta.value ≠ 0)
    {color : AccumulatedColor} (hcol : color ∈ (deltas.foldl VoxelEvidence.add voxel).color) :
    0 < color.weight := by
  have hwei := weightOf_foldl_add deltas voxel
  rw [Option.mem_def.mp hcol] at hwei
  have hsum : 0 ≤ (deltas.map deltaWeight).sum := by
    apply sum_nonneg
    intro weight hm
    obtain ⟨delta, hdel, rfl⟩ := mem_map.mp hm
    exact deltaWeight_nonneg (hdes delta hdel)
  have hbeg : 0 ≤ weightOf voxel.color := by
    rw [weightOf]
    cases hf : voxel.color with
    | none => exact le_refl 0
    | some found => exact (hvox found hf).le
  have hcas : voxel.color.isSome = true ∨
      ∃ delta ∈ deltas, ∃ color ∈ delta.color, color.weightDelta.value ≠ 0 := by
    rcases isSome_foldl_add deltas voxel (Option.isSome_iff_exists.mpr ⟨color, hcol⟩)
      with hsome | hsome
    · exact Or.inl hsome
    · exact hfst hsome
  have hpos : 0 < weightOf voxel.color + (deltas.map deltaWeight).sum := by
    rcases hcas with hsome | ⟨delta, hdel, found, hf, hne⟩
    · obtain ⟨found, hf⟩ := Option.isSome_iff_exists.mp hsome
      have hpst := hvox found hf
      rw [hf]
      exact add_pos_of_pos_of_nonneg hpst hsum
    · have hval : deltaWeight delta = found.weightDelta.value := by
        rw [deltaWeight, Option.mem_def.mp hf]
        rfl
      have hdlt : 0 < deltaWeight delta :=
        lt_of_le_of_ne (deltaWeight_nonneg (hdes delta hdel)) (by rw [hval]; exact hne.symm)
      have hle : deltaWeight delta ≤ (deltas.map deltaWeight).sum := by
        apply single_le_sum _ _ (mem_map_of_mem hdel)
        intro weight hm
        obtain ⟨other, ho, rfl⟩ := mem_map.mp hm
        exact deltaWeight_nonneg (hdes other ho)
      exact add_pos_of_nonneg_of_pos hbeg (lt_of_lt_of_le hdlt hle)
  rw [← hwei] at hpos
  exact hpos

end Adding

/-- A voxel without color that gets color evidence gets some of positive weight. -/
def FirstColorHasWeight (accumulator : VoxelMapAccumulator) (update : MapUpdate) : Prop :=
  accumulator.Accepts update → update.checkpoint = none → ∀ coord place,
    (∃ delta ∈ deltasAt update.voxelChunks coord place, delta.color.isSome = true) →
      (evidenceAt accumulator.chunks coord place).color.isSome = true ∨
        ∃ delta ∈ deltasAt update.voxelChunks coord place, ∃ color ∈ delta.color,
          color.weightDelta.value ≠ 0

theorem VoxelEvidence.valid_foldl_add {contract : VoxelMap} {deltas : List VoxelDelta}
    (hdlt : ∀ delta ∈ deltas, delta.Valid contract ∧ delta.coord = place)
    (hvox : voxel.Valid contract place)
    (hfst : (∃ delta ∈ deltas, delta.color.isSome = true) → voxel.color.isSome = true ∨
      ∃ delta ∈ deltas, ∃ color ∈ delta.color, color.weightDelta.value ≠ 0) :
    (deltas.foldl VoxelEvidence.add voxel).Valid contract place where
  inside hne := by
    cases deltas with
    | nil => exact hvox.inside hne
    | cons delta rest =>
      obtain ⟨hdel, hpla⟩ := hdlt delta mem_cons_self
      exact hpla ▸ hdel.inside
  pruned := by
    apply List.foldlRecOn (motive := fun voxel => SparseMap.Pruned (0 : ℚ) voxel.semantics)
      deltas VoxelEvidence.add hvox.pruned
    intro voxel hpru delta _
    exact pruned_foldl_addSemantic delta.semantics hpru
  classes := by
    apply List.foldlRecOn (motive := fun voxel => ∀ (classId : ℕ) (evidence : ℚ),
      voxel.semantics[classId]? = some evidence → classId < contract.semanticClasses.length)
      deltas VoxelEvidence.add hvox.classes
    intro voxel hcla delta hdel
    exact classes_foldl_addSemantic delta.semantics (hdlt delta hdel).1.classes hcla
  color color hcol := by
    constructor
    · have hall : ∀ found ∈ (deltas.foldl VoxelEvidence.add voxel).color, found.Valid contract := by
        apply List.foldlRecOn (motive := fun voxel => ∀ found ∈ voxel.color, found.Valid contract)
          deltas VoxelEvidence.add fun found hf => (hvox.color found hf).1
        intro voxel hclr delta hdel
        exact AccumulatedColor.valid_addColor hclr (hdlt delta hdel).1.color
      exact hall color hcol
    · exact weight_pos_foldl_add (fun delta hdel => (hdlt delta hdel).1)
        (fun found hf => (hvox.color found hf).2) hfst hcol

theorem VoxelSnapshot.valid_evidence {contract : VoxelMap} {voxel : VoxelSnapshot}
    (hins : checkInsideChunk contract voxel.x voxel.y voxel.z = .ok ())
    (hvalid : validateVoxelSnapshot contract voxel = .ok ()) :
    voxel.evidence.Valid contract voxel.coord := by
  simp only [validateVoxelSnapshot, Checks.all_eq_ok, forall_mem_cons, Checks.distinct_eq_ok,
    checkSemanticClass, Checks.require_eq_ok] at hvalid
  obtain ⟨-, ⟨hcla, hnd⟩, hcol, -⟩ := hvalid
  have hf : ∀ (classId : ℕ) (evidence : ℚ), voxel.evidence.semantics[classId]? = some evidence ↔
        ∃ semantic ∈ voxel.semantics, semantic.classId = classId ∧
          semantic.evidence.value = evidence ∧ evidence ≠ 0 := by
    intro classId evidence
    rw [VoxelSnapshot.evidence, SparseMap.getElem?_collect, mem_filterMap]
    · constructor
      · rintro ⟨semantic, hsem, hsome⟩
        split at hsome
        · rename_i hne
          cases hsome
          exact ⟨semantic, hsem, rfl, rfl, hne⟩
        · cases hsome
      · rintro ⟨semantic, hsem, rfl, rfl, hne⟩
        exact ⟨semantic, hsem, if_pos hne⟩
    · apply nodup_filterMap_fst _ hnd
      intro semantic found hsome
      split at hsome
      · cases hsome
        rfl
      · cases hsome
  rw [checkInsideChunk, Checks.require_eq_ok] at hins
  refine ⟨fun _ => hins, ?_, ?_, ?_⟩
  · intro classId hzero
    obtain ⟨-, -, -, -, hne⟩ := (hf classId 0).mp hzero
    exact hne rfl
  · intro classId evidence hevid
    obtain ⟨semantic, hsem, rfl, -, -⟩ := (hf classId evidence).mp hevid
    exact (hcla semantic hsem).1
  · intro color hclr
    obtain ⟨snapshot, hsnap, rfl⟩ := Option.map_eq_some_iff.mp hclr
    rw [validateColorCheckpoint, Checks.optional_eq_ok] at hcol
    have hcks := hcol snapshot hsnap
    simp only [Checks.all_eq_ok, forall_mem_cons, Checks.require_eq_ok,
      validateColorComponents_eq_ok, Bool.false_eq_true, false_or] at hcks
    obtain ⟨hmod, ⟨-, ⟨hwei, hne⟩, hred, hgre, hblue⟩, -⟩ := hcks
    exact ⟨⟨hmod, hwei, hred, hgre, hblue⟩, lt_of_le_of_ne hwei hne.symm⟩

theorem valid_replacement {contract : VoxelMap} {checkpoint : VoxelMapCheckpoint}
    (hvalid : validateCheckpoint contract checkpoint = .ok ()) (revision : UInt64)
    (coord : ChunkCoord) (place : LocalVoxelCoord) :
    (evidenceAt (checkpoint.replacement revision) coord place).Valid contract place := by
  rw [evidenceAt, voxelsAt, SparseMap.valueAt]
  cases hchunk : (checkpoint.replacement revision)[coord]? with
  | none =>
    rw [Option.map_none, Option.getD_none, ExtTreeMap.getElem?_empty]
    exact VoxelEvidence.valid_empty contract place
  | some found =>
    obtain ⟨chunk, hm, -, -, rfl⟩ := (getElem?_replacement hvalid revision coord found).mp hchunk
    rw [Option.map_some, Option.getD_some]
    cases hvox : chunk.chunkVoxels[place]? with
    | none => exact VoxelEvidence.valid_empty contract place
    | some stored =>
      obtain ⟨voxel, hmmV, rfl, -, rfl⟩ := (getElem?_chunkVoxels hvalid hm place stored).mp hvox
      obtain ⟨hins, hsnap⟩ := ((validateCheckpoint_eq_ok.mp hvalid).2 chunk hm).2 voxel hmmV
      exact VoxelSnapshot.valid_evidence hins hsnap

theorem VoxelMapAccumulator.Valid.apply {accumulator : VoxelMapAccumulator}
    (hvalid : accumulator.Valid) {update : MapUpdate}
    (hfst : FirstColorHasWeight accumulator update) : (accumulator.apply update).1.Valid := by
  refine ⟨isSparse_apply hvalid.sparse update, ?_⟩
  intro coord place
  rw [contract_apply]
  by_cases hacc : accumulator.Accepts update
  · cases hche : update.checkpoint with
    | none =>
      rw [evidenceAt_apply hacc hche]
      apply VoxelEvidence.valid_foldl_add _ (hvalid.evidence coord place)
        (hfst hacc hche coord place)
      intro delta hdel
      exact ⟨hacc.delta_valid hdel, (mem_deltasAt hdel).1⟩
    | some checkpoint =>
      rw [apply_of_checkpoint hacc hche]
      exact valid_replacement (hacc.checkpoint hche) _ coord place
  · obtain ⟨error, heq⟩ := apply_of_rejected hacc
    rw [heq]
    exact hvalid.evidence coord place

theorem replay_concat (accumulator : VoxelMapAccumulator) (updates : List MapUpdate)
    (update : MapUpdate) :
    accumulator.replay (updates ++ [update]) = ((accumulator.replay updates).apply update).1 := by
  rw [VoxelMapAccumulator.replay, foldl_append]
  rfl

theorem contract_replay (accumulator : VoxelMapAccumulator) (updates : List MapUpdate) :
    (accumulator.replay updates).contract = accumulator.contract := by
  induction updates using List.reverseRecOn with
  | nil => rfl
  | append_singleton updates update ih => rw [replay_concat, contract_apply, ih]

theorem VoxelMapAccumulator.Valid.replay {accumulator : VoxelMapAccumulator}
    (hvalid : accumulator.Valid) (updates : List MapUpdate)
    (hfst : ∀ before update after, updates = before ++ update :: after →
      FirstColorHasWeight (accumulator.replay before) update) :
    (accumulator.replay updates).Valid := by
  induction updates using List.reverseRecOn with
  | nil => exact hvalid
  | append_singleton updates update ih =>
    rw [replay_concat]
    apply VoxelMapAccumulator.Valid.apply _ (hfst updates update [] rfl)
    apply ih
    intro before found after hsp
    apply hfst before found (after ++ [update])
    rw [hsp, append_assoc, cons_append]

theorem evidence_snapshot (hpru : SparseMap.Pruned (0 : ℚ) voxel.semantics)
    (place : LocalVoxelCoord) :
    (voxel.snapshot place).evidence = voxel := by
  have hsem : (voxel.snapshot place).evidence.semantics = voxel.semantics := by
    have hall : ((voxel.semantics.toList.map fun semantic =>
        (⟨semantic.1, .finite semantic.2⟩ : SemanticEvidence)).filterMap fun semantic =>
          if semantic.evidence.value ≠ 0 then some (semantic.classId, semantic.evidence.value)
          else none) = voxel.semantics.toList := by
      rw [filterMap_map]
      calc voxel.semantics.toList.filterMap _
          = voxel.semantics.toList.filterMap some := by
            apply filterMap_congr
            rintro ⟨classId, evidence⟩ hm
            rw [ExtTreeMap.mem_toList_iff_getElem?_eq_some] at hm
            have hne : evidence ≠ 0 := by
              rintro rfl
              exact hpru classId hm
            exact if_pos hne
        _ = voxel.semantics.toList := filterMap_some
    rw [VoxelSnapshot.evidence, VoxelEvidence.snapshot]
    dsimp only
    rw [hall, SparseMap.collect_toList]
  have hcol : (voxel.snapshot place).evidence.color = voxel.color := by
    rw [VoxelSnapshot.evidence, VoxelEvidence.snapshot]
    dsimp only
    rw [Option.map_map]
    exact Option.map_id'
  cases voxel with
  | mk occupancy semantics color =>
    exact VoxelEvidence.mk.injEq .. ▸ ⟨rfl, hsem, hcol⟩

section Checkpoint

variable {accumulator : VoxelMapAccumulator} (hvalid : accumulator.Valid) {coord : ChunkCoord}
  {chunk : ChunkState} (hchunk : accumulator.chunks[coord]? = some chunk)

include hvalid hchunk

theorem valid_stored {place : LocalVoxelCoord} {voxel : VoxelEvidence}
    (hvox : chunk.voxels[place]? = some voxel) :
    voxel ≠ .empty ∧ voxel.Valid accumulator.contract place := by
  constructor
  · rintro rfl
    exact (hvalid.sparse coord chunk hchunk).2 place hvox
  · rw [← evidenceAt_of_stored hchunk hvox]
    exact hvalid.evidence coord place

theorem chunkVoxels_snapshot : (chunk.snapshot coord).chunkVoxels = chunk.voxels := by
  have hall : ((chunk.voxels.toList.map fun stored => stored.2.snapshot stored.1).filterMap
      fun snapshot => if snapshot.evidence.isClear then none
        else some (snapshot.coord, snapshot.evidence)) = chunk.voxels.toList := by
    rw [filterMap_map]
    calc chunk.voxels.toList.filterMap _
        = chunk.voxels.toList.filterMap some := by
          apply filterMap_congr
          rintro ⟨place, voxel⟩ hm
          rw [ExtTreeMap.mem_toList_iff_getElem?_eq_some] at hm
          obtain ⟨hne, hvox⟩ := valid_stored hvalid hchunk hm
          simp only [Function.comp_apply, evidence_snapshot hvox.pruned]
          rw [if_neg fun hcle => hne (voxel.isClear_iff.mp hcle)]
          rfl
      _ = chunk.voxels.toList := filterMap_some
  rw [VoxelChunkSnapshot.chunkVoxels, ChunkState.snapshot]
  dsimp only
  rw [hall, SparseMap.collect_toList]

theorem validateVoxelSnapshot_snapshot {place : LocalVoxelCoord} {voxel : VoxelEvidence}
    (hvox : chunk.voxels[place]? = some voxel) :
    validateVoxelSnapshot accumulator.contract (voxel.snapshot place) = .ok () := by
  obtain ⟨-, hevid⟩ := valid_stored hvalid hchunk hvox
  simp only [validateVoxelSnapshot, Checks.all_eq_ok, forall_mem_cons, Checks.distinct_eq_ok,
    checkSemanticClass, checkFiniteEvidence, Checks.require_eq_ok, VoxelEvidence.snapshot,
    forall_mem_map, not_mem_nil, not_false_eq_true, and_true, IsEmpty.forall_iff,
    implies_true, Number.isFinite, true_and, map_map]
  refine ⟨⟨?_, FiniteMap.nodup_map_fst_toList voxel.semantics⟩, ?_⟩
  · rintro ⟨classId, evidence⟩ hm
    rw [ExtTreeMap.mem_toList_iff_getElem?_eq_some] at hm
    exact hevid.classes classId evidence hm
  · rw [validateColorCheckpoint, Checks.optional_eq_ok]
    intro snapshot hsnap
    obtain ⟨color, hcol, rfl⟩ := Option.map_eq_some_iff.mp hsnap
    obtain ⟨hclr, hpos⟩ := hevid.color color hcol
    simp only [Checks.all_eq_ok, forall_mem_cons, Checks.require_eq_ok,
      validateColorComponents_eq_ok, Bool.false_eq_true, false_or, not_mem_nil,
      IsEmpty.forall_iff, implies_true, and_true]
    exact ⟨hclr.model, ⟨rfl, rfl, rfl, rfl⟩, ⟨hclr.weight, hpos.ne'⟩,
      hclr.red, hclr.green, hclr.blue⟩

end Checkpoint

/-- The checkpoint that `checkpoint_update` carries. -/
def VoxelMapAccumulator.checkpoint (accumulator : VoxelMapAccumulator) : VoxelMapCheckpoint :=
  ⟨accumulator.chunks.toList.map fun stored => stored.2.snapshot stored.1⟩

theorem mem_checkpoint {accumulator : VoxelMapAccumulator} {snapshot : VoxelChunkSnapshot} :
    snapshot ∈ accumulator.checkpoint.voxelChunks ↔
      ∃ (coord : ChunkCoord) (chunk : ChunkState), accumulator.chunks[coord]? = some chunk ∧
        chunk.snapshot coord = snapshot := by
  simp only [VoxelMapAccumulator.checkpoint, mem_map, Prod.exists,
    ExtTreeMap.mem_toList_iff_getElem?_eq_some]

theorem validateCheckpoint_checkpoint {accumulator : VoxelMapAccumulator}
    (hvalid : accumulator.Valid) :
    validateCheckpoint accumulator.contract accumulator.checkpoint = .ok () := by
  rw [validateCheckpoint_eq_ok]
  constructor
  · rw [VoxelMapAccumulator.checkpoint, map_map]
    exact FiniteMap.nodup_map_fst_toList accumulator.chunks
  · intro snapshot hsnap
    obtain ⟨coord, chunk, hchunk, rfl⟩ := mem_checkpoint.mp hsnap
    constructor
    · rw [ChunkState.snapshot, map_map]
      exact FiniteMap.nodup_map_fst_toList chunk.voxels
    · rw [ChunkState.snapshot, forall_mem_map]
      rintro ⟨place, voxel⟩ hm
      rw [ExtTreeMap.mem_toList_iff_getElem?_eq_some] at hm
      obtain ⟨hne, hevid⟩ := valid_stored hvalid hchunk hm
      exact ⟨Checks.require_eq_ok.mpr (hevid.inside hne),
        validateVoxelSnapshot_snapshot hvalid hchunk hm⟩

theorem accepts_checkpointUpdate {accumulator other : VoxelMapAccumulator}
    (hvalid : accumulator.Valid) (hcon : other.contract = accumulator.contract) :
    other.Accepts accumulator.checkpointUpdate := by
  rw [VoxelMapAccumulator.Accepts, validateUpdate, Checks.all_eq_ok, hcon]
  simp only [forall_mem_cons, Checks.require_eq_ok]
  refine ⟨fun hmix => hmix.2 rfl, rfl, validateCheckpoint_checkpoint hvalid, ?_⟩
  intro check hchk
  cases hchk

theorem map_voxels_replacement {accumulator : VoxelMapAccumulator} (hvalid : accumulator.Valid)
    (revision : UInt64) (coord : ChunkCoord) :
    (accumulator.checkpoint.replacement revision)[coord]?.map ChunkState.voxels =
      accumulator.chunks[coord]?.map ChunkState.voxels := by
  have hlook := getElem?_replacement (validateCheckpoint_checkpoint hvalid) revision coord
  apply Option.ext
  intro voxels
  rw [Option.map_eq_some_iff, Option.map_eq_some_iff]
  constructor
  · rintro ⟨found, hf, rfl⟩
    obtain ⟨snapshot, hsnap, hcoo, -, rfl⟩ := (hlook found).mp hf
    obtain ⟨place, chunk, hchunk, rfl⟩ := mem_checkpoint.mp hsnap
    have hpla : place = coord := hcoo
    subst hpla
    exact ⟨chunk, hchunk, (chunkVoxels_snapshot hvalid hchunk).symm⟩
  · rintro ⟨chunk, hchunk, rfl⟩
    refine ⟨⟨revision, chunk.voxels⟩, (hlook _).mpr ?_, rfl⟩
    refine ⟨chunk.snapshot coord, mem_checkpoint.mpr ⟨coord, chunk, hchunk, rfl⟩, rfl, ?_, ?_⟩
    · rw [chunkVoxels_snapshot hvalid hchunk]
      exact (hvalid.sparse coord chunk hchunk).1
    · rw [chunkVoxels_snapshot hvalid hchunk]

variable {accumulator' : VoxelMapAccumulator}

theorem evidenceAt_congr {accumulator : VoxelMapAccumulator}
    (hcon : accumulator.contents = accumulator'.contents) (coord : ChunkCoord)
    (place : LocalVoxelCoord) :
    evidenceAt accumulator.chunks coord place = evidenceAt accumulator'.chunks coord place := by
  have hvox := congrFun hcon coord
  rw [VoxelMapAccumulator.contents, VoxelMapAccumulator.contents] at hvox
  rw [evidenceAt, voxelsAt, hvox]
  rfl

theorem contents_apply_congr {accumulator : VoxelMapAccumulator}
    (hspa : IsSparse accumulator.chunks) (hsparse' : IsSparse accumulator'.chunks)
    (hcnt : accumulator.contract = accumulator'.contract)
    (hcon : accumulator.contents = accumulator'.contents) (update : MapUpdate) :
    (accumulator.apply update).1.contents = (accumulator'.apply update).1.contents := by
  have hacc : accumulator.Accepts update ↔ accumulator'.Accepts update := by
    rw [VoxelMapAccumulator.Accepts, hcnt, VoxelMapAccumulator.Accepts]
  by_cases hvalid : accumulator.Accepts update
  · have hvalid' := hacc.mp hvalid
    cases hche : update.checkpoint with
    | none =>
      apply contents_ext (isSparse_apply hspa update) (isSparse_apply hsparse' update)
      intro coord place
      rw [evidenceAt_apply hvalid hche, evidenceAt_apply hvalid' hche, evidenceAt_congr hcon]
    | some checkpoint =>
      rw [apply_of_checkpoint hvalid hche, apply_of_checkpoint hvalid' hche]
      have hlook := fun revision => getElem?_replacement (hvalid.checkpoint hche) revision
      funext coord
      apply Option.ext
      intro voxels
      simp only [VoxelMapAccumulator.contents, VoxelMapAccumulator.applyCheckpoint,
        Option.map_eq_some_iff, hlook]
      constructor
      · rintro ⟨found, ⟨chunk, hchunk, hcoo, hne, rfl⟩, hvox⟩
        exact ⟨_, ⟨chunk, hchunk, hcoo, hne, rfl⟩, hvox⟩
      · rintro ⟨found, ⟨chunk, hchunk, hcoo, hne, rfl⟩, hvox⟩
        exact ⟨_, ⟨chunk, hchunk, hcoo, hne, rfl⟩, hvox⟩
  · obtain ⟨error, heq⟩ := apply_of_rejected hvalid
    obtain ⟨error', heq'⟩ := apply_of_rejected fun h => hvalid (hacc.mpr h)
    rw [heq, heq']
    exact hcon

theorem contents_replay_congr {accumulator : VoxelMapAccumulator}
    (hspa : IsSparse accumulator.chunks) (hsparse' : IsSparse accumulator'.chunks)
    (hcnt : accumulator.contract = accumulator'.contract)
    (hcon : accumulator.contents = accumulator'.contents) (updates : List MapUpdate) :
    (accumulator.replay updates).contents = (accumulator'.replay updates).contents := by
  induction updates generalizing accumulator accumulator' with
  | nil => exact hcon
  | cons update rest ih =>
    apply ih (isSparse_apply hspa update) (isSparse_apply hsparse' update)
    · rw [contract_apply, contract_apply, hcnt]
    · exact contents_apply_congr hspa hsparse' hcnt hcon update

/-- Nothing empty, zero, out of range or without weight is stored. -/
def VoxelMapAccumulator.WellFormed (accumulator : VoxelMapAccumulator) : Prop :=
  ∀ (coord : ChunkCoord) (chunk : ChunkState), accumulator.chunks[coord]? = some chunk →
    chunk.voxels ≠ ∅ ∧
    ∀ (place : LocalVoxelCoord) (voxel : VoxelEvidence), chunk.voxels[place]? = some voxel →
      IsInside accumulator.contract place ∧ voxel ≠ .empty ∧
      (∀ (classId : ℕ) (evidence : ℚ), voxel.semantics[classId]? = some evidence →
        evidence ≠ 0 ∧ classId < accumulator.contract.semanticClasses.length) ∧
      ∀ color ∈ voxel.color, 0 < color.weight

theorem VoxelMapAccumulator.Valid.wellFormed {accumulator : VoxelMapAccumulator}
    (hvalid : accumulator.Valid) : accumulator.WellFormed := by
  intro coord chunk hchunk
  refine ⟨(hvalid.sparse coord chunk hchunk).1, ?_⟩
  intro place voxel hvox
  obtain ⟨hne, hevid⟩ := valid_stored hvalid hchunk hvox
  refine ⟨hevid.inside hne, hne, ?_, fun color hcol => (hevid.color color hcol).2⟩
  intro classId evidence hf
  refine ⟨?_, hevid.classes classId evidence hf⟩
  rintro rfl
  exact hevid.pruned classId hf

/-- Without a first color of weight zero the checkpoint reproduces the state. -/
theorem checkpoint_faithful (registryHash : String → String → VoxelMap → String)
    (map : RegistryRef) (contract : VoxelMap) (start : VoxelMapAccumulator)
    (hnew : VoxelMapAccumulator.new registryHash map contract = .ok start)
    (updates : List MapUpdate)
    (hfirst : ∀ before update after, updates = before ++ update :: after →
      FirstColorHasWeight (start.replay before) update) :
    (start.replay updates).WellFormed ∧
    (∀ other : VoxelMapAccumulator, other.map = map → other.contract = contract →
      (∃ summary, (other.apply (start.replay updates).checkpointUpdate).2 = .ok summary) ∧
      (other.apply (start.replay updates).checkpointUpdate).1.contents =
        (start.replay updates).contents ∧
      ∀ later, ((other.apply (start.replay updates).checkpointUpdate).1.replay later).contents =
        (start.replay (updates ++ later)).contents) ∧
    ∀ update error, ((start.replay updates).apply update).2 = .error error →
      ((start.replay updates).apply update).1 = start.replay updates := by
  obtain ⟨rfl, hsparse⟩ := isSparse_new hnew
  have hempty : VoxelMapAccumulator.Valid ⟨map, contract, 0, ∅⟩ := by
    refine ⟨hsparse, ?_⟩
    intro coord place
    have hnone : evidenceAt (∅ : Chunks) coord place = .empty := by
      rw [evidenceAt, voxelsAt, ExtTreeMap.getElem?_empty]
      exact SparseMap.valueAt_empty
    simp only [hnone]
    exact VoxelEvidence.valid_empty contract place
  have hvalid := hempty.replay updates hfirst
  have hcontract : (VoxelMapAccumulator.replay ⟨map, contract, 0, ∅⟩ updates).contract =
      contract := contract_replay _ updates
  refine ⟨hvalid.wellFormed, ?_, ?_⟩
  · intro other _ hother
    have haccepts := accepts_checkpointUpdate hvalid (hother.trans hcontract.symm)
    have happly := apply_of_checkpoint haccepts rfl
    have hcontents : (other.apply (VoxelMapAccumulator.replay ⟨map, contract, 0, ∅⟩
        updates).checkpointUpdate).1.contents =
        (VoxelMapAccumulator.replay ⟨map, contract, 0, ∅⟩ updates).contents := by
      rw [happly]
      funext coord
      exact map_voxels_replacement hvalid _ coord
    refine ⟨⟨_, congrArg Prod.snd happly⟩, hcontents, ?_⟩
    intro later
    have hsplit : VoxelMapAccumulator.replay ⟨map, contract, 0, ∅⟩ (updates ++ later) =
        (VoxelMapAccumulator.replay ⟨map, contract, 0, ∅⟩ updates).replay later :=
      foldl_append
    rw [hsplit]
    apply contents_replay_congr _ hvalid.sparse _ hcontents
    · rw [happly]
      exact isSparse_replacement (haccepts.checkpoint rfl) _
    · rw [contract_apply, hother, hcontract]
  · intro update error hrejected
    by_cases haccepts : (VoxelMapAccumulator.replay ⟨map, contract, 0, ∅⟩ updates).Accepts update
    · cases hcheckpoint : update.checkpoint with
      | none =>
        rw [apply_of_deltas haccepts hcheckpoint] at hrejected
        cases hrejected
      | some checkpoint =>
        rw [apply_of_checkpoint haccepts hcheckpoint] at hrejected
        cases hrejected
    · obtain ⟨found, heq⟩ := apply_of_rejected haccepts
      rw [heq]

def sampleColor (sum weight : ℚ) : ColorEvidenceDelta :=
  ⟨.finite sum, .finite sum, .finite sum, .finite weight⟩

theorem checkpoint_faithful_sample :
    (sampleStart.apply (sampleUpdate 1 (some (sampleColor 1 2)))).1.WellFormed ∧
    (sampleStart.apply (sampleStart.apply
      (sampleUpdate 1 (some (sampleColor 1 2)))).1.checkpointUpdate).1.contents =
        (sampleStart.apply (sampleUpdate 1 (some (sampleColor 1 2)))).1.contents := by
  have hfaithful := checkpoint_faithful _ sampleMap sampleContract sampleStart new_sample
    [sampleUpdate 1 (some (sampleColor 1 2))] (by
      intro before update after hsplit _ _ coord place hcolor
      cases before with
      | nil =>
        cases hsplit
        obtain ⟨delta, hdelta, -⟩ := hcolor
        refine Or.inr ⟨delta, hdelta, sampleColor 1 2, ?_, by decide⟩
        obtain ⟨-, chunk, hchunk, hmem⟩ := mem_deltasAt hdelta
        cases mem_singleton.mp hchunk
        cases mem_singleton.mp hmem
        rfl
      | cons first rest =>
        rw [cons_append, List.cons.injEq] at hsplit
        exact absurd hsplit.2 (by simp))
  exact ⟨hfaithful.1, (hfaithful.2.1 sampleStart rfl rfl).2.1⟩

/-- Occupancy together with color of weight zero. -/
theorem checkpoint_of_weightless_color :
    VoxelMapAccumulator.new (fun _ _ _ => "map-hash") sampleMap sampleContract =
      .ok sampleStart ∧
    (sampleStart.apply (sampleUpdate 1 (some (sampleColor 0 0)))).2 = .ok ⟨1, [⟨-1, 0, 0⟩], 1⟩ ∧
    ¬ (sampleStart.apply (sampleUpdate 1 (some (sampleColor 0 0)))).1.WellFormed ∧
    (sampleStart.apply (sampleStart.apply
      (sampleUpdate 1 (some (sampleColor 0 0)))).1.checkpointUpdate).2 =
        .error .invalidColorWeight := by
  refine ⟨new_sample, by decide +kernel, ?_, by decide +kernel⟩
  intro hformed
  have hchunk : (sampleStart.apply (sampleUpdate 1 (some (sampleColor 0 0)))).1.chunks[
      (⟨-1, 0, 0⟩ : ChunkCoord)]? = some ⟨1, SparseMap.collect
        [(⟨1, 2, 3⟩, ⟨1, ∅, some ⟨0, 0, 0, 0⟩⟩)]⟩ := by
    decide +kernel
  have hvoxel : (SparseMap.collect [((⟨1, 2, 3⟩ : LocalVoxelCoord),
      (⟨1, ∅, some ⟨0, 0, 0, 0⟩⟩ : VoxelEvidence))])[(⟨1, 2, 3⟩ : LocalVoxelCoord)]? =
        some ⟨1, ∅, some ⟨0, 0, 0, 0⟩⟩ := by
    decide +kernel
  obtain ⟨-, -, -, hcolor⟩ := (hformed _ _ hchunk).2 _ _ hvoxel
  exact lt_irrefl _ (hcolor _ rfl)

theorem evidenceAt_replay {accumulator : VoxelMapAccumulator} {updates : List MapUpdate}
    (hacc : ∀ update ∈ updates, accumulator.Accepts update ∧ update.checkpoint = none)
    (coord : ChunkCoord) (place : LocalVoxelCoord) :
    evidenceAt (accumulator.replay updates).chunks coord place =
      (deltasAt (updates.flatMap MapUpdate.voxelChunks) coord place).foldl VoxelEvidence.add
        (evidenceAt accumulator.chunks coord place) := by
  induction updates generalizing accumulator with
  | nil => rfl
  | cons update rest ih =>
    rw [forall_mem_cons] at hacc
    rw [flatMap_cons, deltasAt_append, foldl_append, ← evidenceAt_apply hacc.1.1 hacc.1.2]
    refine ih fun later hm => ⟨?_, (hacc.2 later hm).2⟩
    exact (accepts_apply accumulator update later).mpr (hacc.2 later hm).1

/-- The map depends on which deltas were accepted, not on their order or their grouping. -/
theorem replicas_converge {registryHash : String → String → VoxelMap → String}
    {map : RegistryRef} {contract : VoxelMap} {start : VoxelMapAccumulator}
    (hnew : VoxelMapAccumulator.new registryHash map contract = .ok start)
    (earlier : List MapUpdate) {updates regrouped : List MapUpdate}
    (hacc : ∀ update ∈ updates ++ regrouped, start.Accepts update ∧ update.checkpoint = none)
    (hper : (placedDeltas (updates.flatMap MapUpdate.voxelChunks)).Perm
      (placedDeltas (regrouped.flatMap MapUpdate.voxelChunks))) :
    ((start.replay earlier).replay updates).contents =
      ((start.replay earlier).replay regrouped).contents := by
  have hspa := isSparse_replay (isSparse_new hnew).2 earlier
  have hacc : ∀ update ∈ updates ++ regrouped,
      (start.replay earlier).Accepts update ∧ update.checkpoint = none := by
    unfold VoxelMapAccumulator.Accepts
    rw [contract_replay]
    exact hacc
  rw [forall_mem_append] at hacc
  apply contents_ext (isSparse_replay hspa updates) (isSparse_replay hspa regrouped)
  intro coord place
  rw [evidenceAt_replay hacc.1, evidenceAt_replay hacc.2]
  exact (hper.filterMap _).foldl_eq' (fun first _ second _ voxel =>
    voxel.add_right_comm first second) _

theorem replicas_converge_sample :
    (sampleStart.replay [sampleUpdate 1 none, sampleUpdate (-1) none]).contents =
      (sampleStart.replay [⟨(sampleUpdate (-1) none).voxelChunks ++
        (sampleUpdate 1 none).voxelChunks, none⟩]).contents :=
  replicas_converge new_sample [] (by unfold VoxelMapAccumulator.Accepts; decide +kernel)
    (by decide +kernel)

end AukiSdk.Maps
