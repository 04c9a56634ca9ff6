import AukiSdk.Maps.Accumulator

/-!
# Replaying updates

The contents of an accumulator are determined by the evidence at each voxel.
-/

namespace AukiSdk.Maps

open AukiSdk.Foundation List
open Std (ExtTreeMap ExtTreeSet TransOrd LawfulEqOrd)

abbrev Chunks := ExtTreeMap ChunkCoord ChunkState

/-- The voxels of each chunk, without revisions. -/
def VoxelMapAccumulator.contents (accumulator : VoxelMapAccumulator) (coord : ChunkCoord) :
    Option (ExtTreeMap LocalVoxelCoord VoxelEvidence) :=
  accumulator.chunks[coord]?.map ChunkState.voxels

def voxelsAt (chunks : Chunks) (coord : ChunkCoord) : ExtTreeMap LocalVoxelCoord VoxelEvidence :=
  (chunks[coord]?.map ChunkState.voxels).getD ∅

/-- The evidence at a voxel. -/
def evidenceAt (chunks : Chunks) (coord : ChunkCoord) (place : LocalVoxelCoord) :
    VoxelEvidence :=
  SparseMap.valueAt .empty (voxelsAt chunks coord) place

/-- A stored chunk has voxels, and each of them has evidence. -/
def ChunkState.IsSparse (chunk : ChunkState) : Prop :=
  chunk.voxels ≠ ∅ ∧ SparseMap.Pruned .empty chunk.voxels

def IsSparse (chunks : Chunks) : Prop :=
  ∀ (coord : ChunkCoord) (chunk : ChunkState), chunks[coord]? = some chunk → chunk.IsSparse

variable (voxel : VoxelEvidence)

theorem VoxelEvidence.isClear_iff : voxel.isClear = true ↔ voxel = .empty := by
  cases voxel with
  | mk occupancy semantics color =>
    simp only [VoxelEvidence.isClear, VoxelEvidence.empty, Bool.and_eq_true, decide_eq_true_eq,
      ExtTreeMap.isEmpty_iff, Option.isNone_iff_eq_none, VoxelEvidence.mk.injEq, and_assoc]

theorem VoxelEvidence.not_isClear_iff : (!voxel.isClear) = true ↔ voxel ≠ .empty := by
  rw [Bool.not_eq_true', ← Bool.not_eq_true, ne_eq, voxel.isClear_iff]

variable {chunks : Chunks}

theorem IsSparse.pruned (hspa : IsSparse chunks) (coord : ChunkCoord) :
    SparseMap.Pruned .empty (voxelsAt chunks coord) := by
  rw [voxelsAt]
  cases hf : chunks[coord]? with
  | none => exact SparseMap.pruned_empty
  | some chunk => exact (hspa coord chunk hf).2

theorem IsSparse.map_voxels_eq (hspa : IsSparse chunks) (coord : ChunkCoord) :
    chunks[coord]?.map ChunkState.voxels =
      if voxelsAt chunks coord = ∅ then none else some (voxelsAt chunks coord) := by
  rw [voxelsAt]
  cases hf : chunks[coord]? with
  | none => exact (if_pos rfl).symm
  | some chunk => exact (if_neg (hspa coord chunk hf).1).symm

theorem IsSparse.map_voxels_ext {chunks' : Chunks} (hspa : IsSparse chunks)
    (hsparse' : IsSparse chunks')
    (hevid : ∀ coord place, evidenceAt chunks coord place = evidenceAt chunks' coord place)
    (coord : ChunkCoord) :
    chunks[coord]?.map ChunkState.voxels = chunks'[coord]?.map ChunkState.voxels := by
  have hvox : voxelsAt chunks coord = voxelsAt chunks' coord :=
    SparseMap.eq_of_valueAt (hspa.pruned coord) (hsparse'.pruned coord) (hevid coord)
  rw [hspa.map_voxels_eq, hsparse'.map_voxels_eq, hvox]

theorem addSemantic_right_comm (semantics : ExtTreeMap ℕ ℚ) (first second : SemanticDelta) :
    addSemantic (addSemantic semantics first) second =
      addSemantic (addSemantic semantics second) first :=
  SparseMap.storeNonzero_comm (fun value => add_right_comm value _ _) second.classId

theorem foldl_addSemantic_comm (first second : List SemanticDelta) (semantics : ExtTreeMap ℕ ℚ) :
    second.foldl addSemantic (first.foldl addSemantic semantics) =
      first.foldl addSemantic (second.foldl addSemantic semantics) := by
  rw [← foldl_append, ← foldl_append]
  exact perm_append_comm.foldl_eq' (fun first _ second _ semantics =>
    addSemantic_right_comm semantics first second) semantics

theorem addColor_right_comm (color : Option AccumulatedColor)
    (first second : Option ColorEvidenceDelta) :
    addColor (addColor color first) second = addColor (addColor color second) first := by
  cases first with
  | none => rfl
  | some first =>
    cases second with
    | none => rfl
    | some second =>
      cases color with
      | none =>
        simp only [addColor, AccumulatedColor.addDelta, AccumulatedColor.fromDelta, add_comm]
      | some color => simp only [addColor, AccumulatedColor.addDelta, add_right_comm]

theorem VoxelEvidence.add_right_comm (first second : VoxelDelta) :
    (voxel.add first).add second = (voxel.add second).add first := by
  simp only [VoxelEvidence.add, VoxelEvidence.mk.injEq]
  exact ⟨by ring, foldl_addSemantic_comm _ _ _, addColor_right_comm _ _ _⟩

/-- The deltas of an update with the chunk each is for. -/
def placedDeltas (voxelChunks : List VoxelChunkUpdate) : List (ChunkCoord × VoxelDelta) :=
  voxelChunks.flatMap fun chunk => chunk.voxels.map fun delta => (chunk.coord, delta)

/-- The deltas of an update that change a value of one voxel. -/
def deltasAt (voxelChunks : List VoxelChunkUpdate) (coord : ChunkCoord)
    (place : LocalVoxelCoord) : List VoxelDelta :=
  (placedDeltas voxelChunks).filterMap fun placed =>
    if placed.2.changesValue = true ∧ placed.1 = coord ∧ placed.2.coord = place then
      some placed.2
    else
      none

theorem placedDeltas_append (first second : List VoxelChunkUpdate) :
    placedDeltas (first ++ second) = placedDeltas first ++ placedDeltas second :=
  flatMap_append

theorem deltasAt_append (first second : List VoxelChunkUpdate) (coord : ChunkCoord)
    (place : LocalVoxelCoord) :
    deltasAt (first ++ second) coord place =
      deltasAt first coord place ++ deltasAt second coord place := by
  rw [deltasAt, placedDeltas_append, filterMap_append]
  rfl

theorem foldl_applyChunk (revision : UInt64) (voxelChunks : List VoxelChunkUpdate)
    (progress : Progress) :
    voxelChunks.foldl (Progress.applyChunk revision) progress =
      (placedDeltas voxelChunks).foldl (fun progress placed =>
        progress.applyDelta revision placed.1 placed.2) progress := by
  induction voxelChunks generalizing progress with
  | nil => rfl
  | cons chunk rest ih =>
    have hpla : placedDeltas (chunk :: rest) =
        chunk.voxels.map (fun delta => (chunk.coord, delta)) ++ placedDeltas rest :=
      flatMap_cons
    rw [foldl_cons, ih, hpla, foldl_append, foldl_map]
    rfl

section Loop

variable {revision : UInt64} {progress : Progress}

theorem evidenceAt_applyDelta (coord : ChunkCoord) (delta : VoxelDelta) (coord' : ChunkCoord)
    (place : LocalVoxelCoord) :
    evidenceAt (progress.applyDelta revision coord delta).chunks coord' place =
      if delta.changesValue = true ∧ coord = coord' ∧ delta.coord = place then
        (evidenceAt progress.chunks coord' place).add delta
      else
        evidenceAt progress.chunks coord' place := by
  rw [Progress.applyDelta]
  by_cases hcha : delta.changesValue = false
  · simp [hcha]
  · rw [if_neg hcha]
    rw [Bool.not_eq_false] at hcha
    simp only [hcha, true_and]
    by_cases hcoo : coord' = coord
    · subst hcoo
      have hvox : voxelsAt (SparseMap.store (⟨revision, ∅⟩ : ChunkState) (fun chunk =>
          { chunk with
            voxels := SparseMap.store .empty (·.add delta) delta.coord chunk.voxels }) coord'
          progress.chunks) coord' =
          SparseMap.store .empty (·.add delta) delta.coord (voxelsAt progress.chunks coord') := by
        rw [voxelsAt, SparseMap.store, ExtTreeMap.getElem?_alter_self, voxelsAt]
        cases progress.chunks[coord']? with
        | none => rfl
        | some chunk => rfl
      rw [evidenceAt, hvox, evidenceAt]
      by_cases hpla : place = delta.coord
      · subst hpla
        simp only [SparseMap.valueAt_store_self, and_self, if_true]
      · simp only [SparseMap.valueAt_store_of_ne hpla, Ne.symm hpla, and_false, if_false]
    · simp only [Ne.symm hcoo, false_and, if_false, evidenceAt, voxelsAt, SparseMap.store,
        SparseMap.getElem?_alter_of_ne hcoo]

variable (placed : List (ChunkCoord × VoxelDelta))

theorem evidenceAt_foldl_applyDelta (coord : ChunkCoord) (place : LocalVoxelCoord) :
    evidenceAt (placed.foldl (fun progress placed =>
        progress.applyDelta revision placed.1 placed.2) progress).chunks coord place =
      (placed.filterMap fun placed =>
        if placed.2.changesValue = true ∧ placed.1 = coord ∧ placed.2.coord = place then
          some placed.2
        else
          none).foldl VoxelEvidence.add (evidenceAt progress.chunks coord place) := by
  induction placed generalizing progress with
  | nil => rfl
  | cons first rest ih =>
    rw [foldl_cons, ih, evidenceAt_applyDelta, filterMap_cons]
    by_cases hhere : first.2.changesValue = true ∧ first.1 = coord ∧ first.2.coord = place
    · simp only [if_pos hhere, foldl_cons]
    · simp only [if_neg hhere]

theorem mem_changed_foldl_applyDelta (coord : ChunkCoord) :
    coord ∈ (placed.foldl (fun progress placed =>
        progress.applyDelta revision placed.1 placed.2) progress).changed ↔
      coord ∈ progress.changed ∨
        ∃ found ∈ placed, found.1 = coord ∧ found.2.changesValue = true := by
  induction placed generalizing progress with
  | nil => simp
  | cons first rest ih =>
    have hs : coord ∈ (progress.applyDelta revision first.1 first.2).changed ↔
        coord ∈ progress.changed ∨ first.1 = coord ∧ first.2.changesValue = true := by
      rw [Progress.applyDelta]
      by_cases hcha : first.2.changesValue = false
      · simp [hcha]
      · rw [if_neg hcha, ExtTreeSet.mem_insert, LawfulEqOrd.compare_eq_iff_eq]
        rw [Bool.not_eq_false] at hcha
        simp only [hcha, and_true]
        exact or_comm
    rw [foldl_cons, ih, hs, exists_mem_cons_iff, or_assoc]

theorem getElem?_foldl_applyDelta {coord : ChunkCoord}
    (hcoo : ∀ found ∈ placed, found.1 = coord → found.2.changesValue = false) :
    (placed.foldl (fun progress placed =>
      progress.applyDelta revision placed.1 placed.2) progress).chunks[coord]? =
        progress.chunks[coord]? := by
  induction placed generalizing progress with
  | nil => rfl
  | cons first rest ih =>
    rw [foldl_cons, ih fun found hf => hcoo found (mem_cons_of_mem _ hf), Progress.applyDelta]
    by_cases hcha : first.2.changesValue = false
    · rw [if_pos hcha]
    · rw [if_neg hcha]
      apply SparseMap.getElem?_alter_of_ne
      intro hsm
      exact hcha (hcoo first mem_cons_self hsm.symm)

end Loop

/-- What pruning leaves of a chunk. -/
def prunedChunk (revision : UInt64) (found : Option ChunkState) : Option ChunkState :=
  found.bind fun chunk =>
    let voxels := chunk.voxels.filter fun _ voxel => !voxel.isClear
    if voxels.isEmpty then none else some ⟨revision, voxels⟩

theorem nodup_toList (coords : ExtTreeSet ChunkCoord) : coords.toList.Nodup :=
  coords.distinct_toList.imp fun hne heq => hne (LawfulEqOrd.compare_eq_iff_eq.mpr heq)

theorem getElem?_foldl_pruneChunk (revision : UInt64) (coords : ExtTreeSet ChunkCoord)
    (chunks : Chunks) (coord : ChunkCoord) :
    (coords.toList.foldl (pruneChunk revision) chunks)[coord]? =
      if coord ∈ coords then prunedChunk revision chunks[coord]? else chunks[coord]? := by
  have hfold : (coords.toList.foldl (pruneChunk revision) chunks)[coord]? =
      if coord ∈ coords.toList then prunedChunk revision chunks[coord]? else chunks[coord]? :=
    SparseMap.getElem?_foldl_alter (nodup_toList coords) chunks coord
  simpa only [ExtTreeSet.mem_toList] using hfold

theorem voxels_prunedChunk (revision : UInt64) (found : Option ChunkState) :
    ((prunedChunk revision found).map ChunkState.voxels).getD ∅ =
      ((found.map ChunkState.voxels).getD ∅).filter fun _ voxel => !voxel.isClear := by
  cases found with
  | none =>
    apply ExtTreeMap.ext_getElem?
    intro place
    rw [ExtTreeMap.getElem?_filter']
    simp [prunedChunk]
  | some chunk =>
    simp only [prunedChunk, Option.bind_some, Option.map_some, Option.getD_some]
    by_cases hemp : (chunk.voxels.filter fun _ voxel => !voxel.isClear).isEmpty = true
    · rw [if_pos hemp, ExtTreeMap.isEmpty_iff.mp hemp]
      rfl
    · rw [if_neg hemp]
      rfl

theorem isSparse_prunedChunk {revision : UInt64} {found : Option ChunkState} {chunk : ChunkState}
    (hchk : prunedChunk revision found = some chunk) : chunk.IsSparse := by
  cases found with
  | none => cases hchk
  | some start =>
    simp only [prunedChunk, Option.bind_some] at hchk
    by_cases hemp : (start.voxels.filter fun _ voxel => !voxel.isClear).isEmpty = true
    · rw [if_pos hemp] at hchk
      cases hchk
    · rw [if_neg hemp, Option.some.injEq] at hchk
      subst hchk
      exact ⟨fun h => hemp (ExtTreeMap.isEmpty_iff.mpr h),
        SparseMap.pruned_filter VoxelEvidence.not_isClear_iff⟩

section Deltas

variable (accumulator : VoxelMapAccumulator) (voxelChunks : List VoxelChunkUpdate)

/-- The state of the loop after all deltas. -/
def VoxelMapAccumulator.progress : Progress :=
  voxelChunks.foldl (Progress.applyChunk accumulator.revision) ⟨accumulator.chunks, ∅, 0⟩

variable (coord : ChunkCoord)

theorem mem_changed_progress : coord ∈ (accumulator.progress voxelChunks).changed ↔
      ∃ found ∈ placedDeltas voxelChunks, found.1 = coord ∧ found.2.changesValue = true := by
  rw [VoxelMapAccumulator.progress, foldl_applyChunk, mem_changed_foldl_applyDelta]
  simp

theorem getElem?_progress {coord : ChunkCoord}
    (hcoo : coord ∉ (accumulator.progress voxelChunks).changed) :
    (accumulator.progress voxelChunks).chunks[coord]? = accumulator.chunks[coord]? := by
  rw [mem_changed_progress] at hcoo
  rw [VoxelMapAccumulator.progress, foldl_applyChunk]
  apply getElem?_foldl_applyDelta
  intro found hf hsm
  rw [← Bool.not_eq_true]
  intro hcha
  exact hcoo ⟨found, hf, hsm, hcha⟩

theorem applyDeltas_eq : ∃ revision,
    (∀ coord, (accumulator.applyDeltas voxelChunks).1.chunks[coord]? =
      if coord ∈ (accumulator.progress voxelChunks).changed then
        prunedChunk revision (accumulator.progress voxelChunks).chunks[coord]?
      else
        accumulator.chunks[coord]?) ∧
    ∀ coord, coord ∈ (accumulator.applyDeltas voxelChunks).2.changedChunks ↔
      coord ∈ (accumulator.progress voxelChunks).changed := by
  refine ⟨accumulator.revision + 1, ?_⟩
  by_cases hemp : (accumulator.progress voxelChunks).changed.isEmpty = true
  · have hnone : ∀ coord, coord ∉ (accumulator.progress voxelChunks).changed := by
      intro coord
      rw [ExtTreeSet.isEmpty_iff.mp hemp]
      exact ExtTreeSet.not_mem_empty
    have heq : accumulator.applyDeltas voxelChunks =
        ({ accumulator with chunks := (accumulator.progress voxelChunks).chunks },
          ⟨accumulator.revision, [], (accumulator.progress voxelChunks).deltaCount⟩) :=
      if_pos hemp
    rw [heq]
    constructor
    · intro coord
      rw [if_neg (hnone coord)]
      exact getElem?_progress accumulator voxelChunks (hnone coord)
    · intro coord
      simp [hnone coord]
  · have heq : accumulator.applyDeltas voxelChunks =
        ({ accumulator with
            revision := accumulator.revision + 1
            chunks := (accumulator.progress voxelChunks).changed.toList.foldl
              (pruneChunk (accumulator.revision + 1))
              (accumulator.progress voxelChunks).chunks },
          ⟨accumulator.revision + 1, (accumulator.progress voxelChunks).changed.toList,
            (accumulator.progress voxelChunks).deltaCount⟩) := if_neg hemp
    rw [heq]
    constructor
    · intro coord
      rw [getElem?_foldl_pruneChunk]
      by_cases hcoo : coord ∈ (accumulator.progress voxelChunks).changed
      · rw [if_pos hcoo, if_pos hcoo]
      · rw [if_neg hcoo, if_neg hcoo]
        exact getElem?_progress accumulator voxelChunks hcoo
    · intro coord
      exact ExtTreeSet.mem_toList

theorem evidenceAt_progress (place : LocalVoxelCoord) :
    evidenceAt (accumulator.progress voxelChunks).chunks coord place =
      (deltasAt voxelChunks coord place).foldl VoxelEvidence.add
        (evidenceAt accumulator.chunks coord place) := by
  rw [VoxelMapAccumulator.progress, foldl_applyChunk, evidenceAt_foldl_applyDelta]
  rfl

theorem evidenceAt_applyDeltas (place : LocalVoxelCoord) :
    evidenceAt (accumulator.applyDeltas voxelChunks).1.chunks coord place =
      (deltasAt voxelChunks coord place).foldl VoxelEvidence.add
        (evidenceAt accumulator.chunks coord place) := by
  obtain ⟨revision, hchu, -⟩ := applyDeltas_eq accumulator voxelChunks
  rw [← evidenceAt_progress]
  by_cases hcoo : coord ∈ (accumulator.progress voxelChunks).changed
  · simp only [evidenceAt, voxelsAt, hchu, if_pos hcoo, voxels_prunedChunk]
    exact SparseMap.valueAt_filter VoxelEvidence.not_isClear_iff
  · simp only [evidenceAt, voxelsAt, hchu, if_neg hcoo,
      getElem?_progress accumulator voxelChunks hcoo]

theorem isSparse_applyDeltas (hspa : IsSparse accumulator.chunks) :
    IsSparse (accumulator.applyDeltas voxelChunks).1.chunks := by
  obtain ⟨revision, hchu, -⟩ := applyDeltas_eq accumulator voxelChunks
  intro coord chunk hf
  rw [hchu] at hf
  split at hf
  · exact isSparse_prunedChunk hf
  · exact hspa coord chunk hf

theorem contract_applyDeltas :
    (accumulator.applyDeltas voxelChunks).1.contract = accumulator.contract := by
  rw [VoxelMapAccumulator.applyDeltas]
  dsimp only
  split
  · rfl
  · rfl

end Deltas

section Apply

variable {accumulator : VoxelMapAccumulator} {update : MapUpdate}

/-- The update passes validation, which does not read the voxels. -/
def VoxelMapAccumulator.Accepts (accumulator : VoxelMapAccumulator) (update : MapUpdate) : Prop :=
  validateUpdate accumulator.contract update = .ok ()

theorem apply_of_rejected (hrej : ¬ accumulator.Accepts update) :
    ∃ error, accumulator.apply update = (accumulator, .error error) := by
  rw [VoxelMapAccumulator.Accepts] at hrej
  rw [VoxelMapAccumulator.apply]
  cases hval : validateUpdate accumulator.contract update with
  | error error => exact ⟨error, rfl⟩
  | ok result => exact absurd hval hrej

theorem apply_of_deltas (hval : accumulator.Accepts update) (hdel : update.checkpoint = none) :
    accumulator.apply update = ((accumulator.applyDeltas update.voxelChunks).1,
      .ok (accumulator.applyDeltas update.voxelChunks).2) := by
  rw [VoxelMapAccumulator.Accepts] at hval
  rw [VoxelMapAccumulator.apply, hval, hdel]

theorem apply_of_checkpoint {checkpoint : VoxelMapCheckpoint} (hval : accumulator.Accepts update)
    (hchk : update.checkpoint = some checkpoint) :
    accumulator.apply update = ((accumulator.applyCheckpoint checkpoint).1,
      .ok (accumulator.applyCheckpoint checkpoint).2) := by
  rw [VoxelMapAccumulator.Accepts] at hval
  rw [VoxelMapAccumulator.apply, hval, hchk]

theorem accepts_of_apply_eq_ok {summary : ApplySummary}
    (happ : (accumulator.apply update).2 = .ok summary) : accumulator.Accepts update := by
  by_contra hrej
  obtain ⟨error, heq⟩ := apply_of_rejected hrej
  rw [heq] at happ
  cases happ

theorem contract_apply (accumulator : VoxelMapAccumulator) (update : MapUpdate) :
    (accumulator.apply update).1.contract = accumulator.contract := by
  by_cases hval : accumulator.Accepts update
  · cases hchk : update.checkpoint with
    | none =>
      rw [apply_of_deltas hval hchk]
      exact contract_applyDeltas accumulator update.voxelChunks
    | some checkpoint =>
      rw [apply_of_checkpoint hval hchk]
      rfl
  · obtain ⟨error, heq⟩ := apply_of_rejected hval
    rw [heq]

theorem accepts_apply (accumulator : VoxelMapAccumulator) (update other : MapUpdate) :
    (accumulator.apply update).1.Accepts other ↔ accumulator.Accepts other := by
  rw [VoxelMapAccumulator.Accepts, contract_apply, VoxelMapAccumulator.Accepts]

end Apply

theorem nodup_filterMap_fst {A B C : Type*} {key : A → B} {project : A → Option (B × C)}
    (hpro : ∀ value found, project value = some found → found.1 = key value) {values : List A}
    (hnd : (values.map key).Nodup) : ((values.filterMap project).map Prod.fst).Nodup := by
  have hsub : ((values.filterMap project).map Prod.fst).Sublist (values.map key) := by
    induction values with
    | nil => exact List.Sublist.refl _
    | cons value rest ih =>
      rw [map_cons, nodup_cons] at hnd
      rw [filterMap_cons, map_cons]
      cases hf : project value with
      | none => exact (ih hnd.2).cons _
      | some found =>
        rw [map_cons, hpro value found hf]
        exact (ih hnd.2).cons_cons _
  exact hnd.sublist hsub

theorem validateCheckpoint_eq_ok {contract : VoxelMap} {checkpoint : VoxelMapCheckpoint} :
    validateCheckpoint contract checkpoint = .ok () ↔
      (checkpoint.voxelChunks.map VoxelChunkSnapshot.coord).Nodup ∧
      ∀ chunk ∈ checkpoint.voxelChunks, (chunk.voxels.map VoxelSnapshot.coord).Nodup ∧
        ∀ voxel ∈ chunk.voxels, checkInsideChunk contract voxel.x voxel.y voxel.z = .ok () ∧
          validateVoxelSnapshot contract voxel = .ok () := by
  simp only [validateCheckpoint, Checks.distinct_eq_ok, not_mem_nil, not_false_eq_true,
    and_true, true_and]
  constructor
  · rintro ⟨hchu, hnd⟩
    exact ⟨hnd, fun chunk hchk => ⟨(hchu chunk hchk).2, (hchu chunk hchk).1⟩⟩
  · rintro ⟨hnd, hchu⟩
    exact ⟨fun chunk hchk => ⟨(hchu chunk hchk).2, (hchu chunk hchk).1⟩, hnd⟩

section Checkpoint

variable {contract : VoxelMap} {checkpoint : VoxelMapCheckpoint}

theorem getElem?_replacement (hval : validateCheckpoint contract checkpoint = .ok ())
    (revision : UInt64) (coord : ChunkCoord) (found : ChunkState) :
    (checkpoint.replacement revision)[coord]? = some found ↔
      ∃ chunk ∈ checkpoint.voxelChunks, chunk.coord = coord ∧ chunk.chunkVoxels ≠ ∅ ∧
        found = ⟨revision, chunk.chunkVoxels⟩ := by
  have hnd := (validateCheckpoint_eq_ok.mp hval).1
  rw [VoxelMapCheckpoint.replacement, SparseMap.getElem?_collect, mem_filterMap]
  · constructor
    · rintro ⟨chunk, hchk, hsome⟩
      split at hsome
      · cases hsome
      · rename_i hne
        cases hsome
        exact ⟨chunk, hchk, rfl, fun h => hne (ExtTreeMap.isEmpty_iff.mpr h), rfl⟩
    · rintro ⟨chunk, hchk, rfl, hne, rfl⟩
      refine ⟨chunk, hchk, if_neg ?_⟩
      exact fun h => hne (ExtTreeMap.isEmpty_iff.mp h)
  · apply nodup_filterMap_fst _ hnd
    intro chunk found hsome
    split at hsome
    · cases hsome
    · cases hsome
      rfl

theorem getElem?_chunkVoxels (hval : validateCheckpoint contract checkpoint = .ok ())
    {chunk : VoxelChunkSnapshot} (hchk : chunk ∈ checkpoint.voxelChunks)
    (place : LocalVoxelCoord) (found : VoxelEvidence) :
    chunk.chunkVoxels[place]? = some found ↔
      ∃ voxel ∈ chunk.voxels, voxel.coord = place ∧ voxel.evidence ≠ .empty ∧
        found = voxel.evidence := by
  have hnd := ((validateCheckpoint_eq_ok.mp hval).2 chunk hchk).1
  rw [VoxelChunkSnapshot.chunkVoxels, SparseMap.getElem?_collect, mem_filterMap]
  · constructor
    · rintro ⟨voxel, hvox, hsome⟩
      split at hsome
      · cases hsome
      · rename_i hcle
        cases hsome
        exact ⟨voxel, hvox, rfl, fun h => hcle (voxel.evidence.isClear_iff.mpr h), rfl⟩
    · rintro ⟨voxel, hvox, rfl, hne, rfl⟩
      refine ⟨voxel, hvox, if_neg ?_⟩
      exact fun h => hne (voxel.evidence.isClear_iff.mp h)
  · apply nodup_filterMap_fst _ hnd
    intro voxel found hsome
    split at hsome
    · cases hsome
    · cases hsome
      rfl

theorem isSparse_replacement (hval : validateCheckpoint contract checkpoint = .ok ())
    (revision : UInt64) : IsSparse (checkpoint.replacement revision) := by
  intro coord found hf
  obtain ⟨chunk, hchk, -, hne, rfl⟩ := (getElem?_replacement hval revision coord found).mp hf
  refine ⟨hne, ?_⟩
  intro place hemp
  obtain ⟨voxel, -, -, hevid, heq⟩ := (getElem?_chunkVoxels hval hchk place .empty).mp hemp
  exact hevid heq.symm

end Checkpoint

theorem VoxelMapAccumulator.Accepts.checkpoint {accumulator : VoxelMapAccumulator}
    {update : MapUpdate} {checkpoint : VoxelMapCheckpoint} (hval : accumulator.Accepts update)
    (hchk : update.checkpoint = some checkpoint) :
    validateCheckpoint accumulator.contract checkpoint = .ok () := by
  rw [VoxelMapAccumulator.Accepts, validateUpdate, Checks.all_eq_ok] at hval
  have hlast := hval (Checks.optional update.checkpoint
    (validateCheckpoint accumulator.contract)) (by simp)
  rw [hchk] at hlast
  exact hlast

/-- The accumulator after some updates, accepted or rejected. -/
def VoxelMapAccumulator.replay (accumulator : VoxelMapAccumulator) (updates : List MapUpdate) :
    VoxelMapAccumulator :=
  updates.foldl (fun accumulator update => (accumulator.apply update).1) accumulator

theorem isSparse_apply {accumulator : VoxelMapAccumulator} (hspa : IsSparse accumulator.chunks)
    (update : MapUpdate) : IsSparse (accumulator.apply update).1.chunks := by
  by_cases hval : accumulator.Accepts update
  · cases hchk : update.checkpoint with
    | none =>
      rw [apply_of_deltas hval hchk]
      exact isSparse_applyDeltas accumulator update.voxelChunks hspa
    | some checkpoint =>
      rw [apply_of_checkpoint hval hchk]
      exact isSparse_replacement (hval.checkpoint hchk) _
  · obtain ⟨error, heq⟩ := apply_of_rejected hval
    rw [heq]
    exact hspa

theorem isSparse_replay {accumulator : VoxelMapAccumulator} (hspa : IsSparse accumulator.chunks)
    (updates : List MapUpdate) : IsSparse (accumulator.replay updates).chunks := by
  induction updates generalizing accumulator with
  | nil => exact hspa
  | cons update rest ih => exact ih (isSparse_apply hspa update)

theorem isSparse_new {registryHash : String → String → VoxelMap → String} {map : RegistryRef}
    {contract : VoxelMap} {accumulator : VoxelMapAccumulator}
    (hnew : VoxelMapAccumulator.new registryHash map contract = .ok accumulator) :
    accumulator = ⟨map, contract, 0, ∅⟩ ∧ IsSparse accumulator.chunks := by
  simp only [VoxelMapAccumulator.new] at hnew
  split at hnew
  · cases hnew
  · split at hnew
    · cases hnew
    · split at hnew
      · cases hnew
      · cases hnew
        refine ⟨rfl, ?_⟩
        intro coord chunk hf
        rw [ExtTreeMap.getElem?_empty] at hf
        cases hf

/-- The chunks of a viewer, by coordinate. -/
abbrev View := ExtTreeMap ChunkCoord ViewerChunkSnapshot

def viewOf (chunks : List ViewerChunkSnapshot) : View :=
  SparseMap.collect (chunks.map fun chunk => (chunk.coord, chunk))

/-- The chunk is replaced, or removed if it has no visible voxel. -/
def refreshChunk (accumulator : VoxelMapAccumulator) (threshold : Number) (view : View)
    (coord : ChunkCoord) : View :=
  view.alter coord fun _ =>
    match accumulator.viewerChunk coord threshold with
    | .ok (some chunk) => if chunk.voxels = [] then none else some chunk
    | _ => none

/-- What is visible of a chunk. -/
def visibleChunk (accumulator : VoxelMapAccumulator) (threshold : ℚ) (coord : ChunkCoord) :
    Option ViewerChunkSnapshot :=
  accumulator.chunks[coord]?.bind fun chunk =>
    let visible := accumulator.viewerChunkFromState coord chunk threshold
    if visible.voxels = [] then none else some visible

theorem nodup_filter_map_coord (accumulator : VoxelMapAccumulator) (threshold : ℚ) :
    ((((accumulator.chunks.toList.map fun stored =>
        accumulator.viewerChunkFromState stored.1 stored.2 threshold).filter fun chunk =>
          chunk.voxels ≠ []).map fun chunk => (chunk.coord, chunk)).map Prod.fst).Nodup := by
  rw [map_map]
  have hsub : (((accumulator.chunks.toList.map fun stored =>
      accumulator.viewerChunkFromState stored.1 stored.2 threshold).filter fun chunk =>
        chunk.voxels ≠ []).map ViewerChunkSnapshot.coord).Sublist
      (accumulator.chunks.toList.map Prod.fst) := by
    have hcoo : (accumulator.chunks.toList.map fun stored =>
        accumulator.viewerChunkFromState stored.1 stored.2 threshold).map
          ViewerChunkSnapshot.coord = accumulator.chunks.toList.map Prod.fst := by
      rw [map_map]
      rfl
    rw [← hcoo]
    exact filter_sublist.map _
  exact (FiniteMap.nodup_map_fst_toList accumulator.chunks).sublist hsub

theorem getElem?_viewOf {accumulator : VoxelMapAccumulator} {threshold : ℚ}
    {snapshot : ViewerSnapshot}
    (hsnap : accumulator.viewerSnapshot (.finite threshold) = .ok snapshot)
    (coord : ChunkCoord) :
    (viewOf snapshot.chunks)[coord]? = visibleChunk accumulator threshold coord := by
  cases hsnap
  apply Option.ext
  intro visible
  rw [viewOf, SparseMap.getElem?_collect (nodup_filter_map_coord accumulator threshold),
    visibleChunk, Option.bind_eq_some_iff]
  simp only [mem_map, mem_filter, decide_eq_true_eq, Prod.mk.injEq, Prod.exists,
    ExtTreeMap.mem_toList_iff_getElem?_eq_some]
  constructor
  · rintro ⟨found, ⟨⟨key, chunk, hchk, rfl⟩, hvis⟩, rfl, rfl⟩
    exact ⟨chunk, hchk, if_neg hvis⟩
  · rintro ⟨chunk, hchk, hsome⟩
    split at hsome
    · cases hsome
    · rename_i hvis
      cases hsome
      exact ⟨_, ⟨⟨coord, chunk, hchk, rfl⟩, hvis⟩, rfl, rfl⟩

theorem getElem?_foldl_refreshChunk (accumulator : VoxelMapAccumulator) (threshold : ℚ)
    {changed : List ChunkCoord} (hnd : changed.Nodup) (view : View) (coord : ChunkCoord) :
    (changed.foldl (refreshChunk accumulator (.finite threshold)) view)[coord]? =
      if coord ∈ changed then visibleChunk accumulator threshold coord else view[coord]? := by
  have href : refreshChunk accumulator (.finite threshold) = fun view coord =>
      view.alter coord fun _ => visibleChunk accumulator threshold coord := by
    funext view coord
    rw [refreshChunk]
    congr 1
    funext found
    simp only [VoxelMapAccumulator.viewerChunk, validateThreshold, Except.map, visibleChunk]
    cases accumulator.chunks[coord]? with
    | none => rfl
    | some chunk => rfl
  rw [href]
  exact SparseMap.getElem?_foldl_alter hnd view coord

theorem changedChunks_apply {accumulator : VoxelMapAccumulator} {update : MapUpdate}
    {summary : ApplySummary} (happ : (accumulator.apply update).2 = .ok summary) :
    summary.changedChunks.Nodup ∧ ∀ coord, coord ∉ summary.changedChunks →
      (accumulator.apply update).1.chunks[coord]? = accumulator.chunks[coord]? := by
  have hval := accepts_of_apply_eq_ok happ
  cases hchk : update.checkpoint with
  | none =>
    rw [apply_of_deltas hval hchk] at happ ⊢
    cases happ
    obtain ⟨revision, hchu, hchd⟩ := applyDeltas_eq accumulator update.voxelChunks
    constructor
    · rw [VoxelMapAccumulator.applyDeltas]
      dsimp only
      split
      · exact nodup_nil
      · exact nodup_toList _
    · intro coord hcoo
      rw [hchd] at hcoo
      rw [hchu, if_neg hcoo]
  | some checkpoint =>
    rw [apply_of_checkpoint hval hchk] at happ ⊢
    cases happ
    simp only [VoxelMapAccumulator.applyCheckpoint]
    refine ⟨nodup_toList _, ?_⟩
    intro coord hcoo
    simp only [ExtTreeSet.mem_toList, ExtTreeSet.mem_ofList, contains_eq_mem,
      mem_append, ExtTreeMap.mem_keys, decide_eq_true_eq, not_or] at hcoo
    rw [ExtTreeMap.getElem?_eq_none hcoo.1, ExtTreeMap.getElem?_eq_none hcoo.2]

theorem viewerChunkFromState_apply (accumulator : VoxelMapAccumulator) (update : MapUpdate) :
    (accumulator.apply update).1.viewerChunkFromState = accumulator.viewerChunkFromState := by
  funext coord chunk threshold
  simp only [VoxelMapAccumulator.viewerChunkFromState, VoxelMapAccumulator.center, contract_apply]

theorem viewOf_apply {accumulator : VoxelMapAccumulator} {update : MapUpdate}
    {summary : ApplySummary} (happ : (accumulator.apply update).2 = .ok summary)
    {threshold : ℚ} {before after : ViewerSnapshot}
    (hpre : accumulator.viewerSnapshot (.finite threshold) = .ok before)
    (haft : (accumulator.apply update).1.viewerSnapshot (.finite threshold) = .ok after) :
    summary.changedChunks.foldl (refreshChunk (accumulator.apply update).1 (.finite threshold))
      (viewOf before.chunks) = viewOf after.chunks := by
  obtain ⟨hnd, hsm⟩ := changedChunks_apply happ
  apply ExtTreeMap.ext_getElem?
  intro coord
  rw [getElem?_foldl_refreshChunk _ _ hnd, getElem?_viewOf haft]
  by_cases hcoo : coord ∈ summary.changedChunks
  · rw [if_pos hcoo]
  · rw [if_neg hcoo, getElem?_viewOf hpre, visibleChunk, visibleChunk, hsm coord hcoo,
      viewerChunkFromState_apply]

theorem accepts_append {accumulator : VoxelMapAccumulator} {first second : MapUpdate}
    (hfst : accumulator.Accepts first) (hsnd : accumulator.Accepts second) :
    accumulator.Accepts ⟨first.voxelChunks ++ second.voxelChunks, none⟩ := by
  simp only [VoxelMapAccumulator.Accepts, validateUpdate, Checks.all_eq_ok, forall_mem_cons,
    forall_mem_map] at hfst hsnd ⊢
  refine ⟨by simp, ?_, rfl, hsnd.2.2.2⟩
  intro chunk hchk
  rcases mem_append.mp hchk with hm | hm
  · exact hfst.2.1 chunk hm
  · exact hsnd.2.1 chunk hm

theorem contents_ext {accumulator accumulator' : VoxelMapAccumulator}
    (hspa : IsSparse accumulator.chunks) (hsparse' : IsSparse accumulator'.chunks)
    (hevid : ∀ coord place, evidenceAt accumulator.chunks coord place =
      evidenceAt accumulator'.chunks coord place) :
    accumulator.contents = accumulator'.contents := by
  funext coord
  exact hspa.map_voxels_ext hsparse' hevid coord

theorem evidenceAt_apply {accumulator : VoxelMapAccumulator} {update : MapUpdate}
    (hval : accumulator.Accepts update) (hdel : update.checkpoint = none)
    (coord : ChunkCoord) (place : LocalVoxelCoord) :
    evidenceAt (accumulator.apply update).1.chunks coord place =
      (deltasAt update.voxelChunks coord place).foldl VoxelEvidence.add
        (evidenceAt accumulator.chunks coord place) := by
  rw [apply_of_deltas hval hdel]
  exact evidenceAt_applyDeltas accumulator update.voxelChunks coord place

theorem evidenceAt_apply_apply {accumulator : VoxelMapAccumulator} {first second : MapUpdate}
    (hfst : accumulator.Accepts first) (hsnd : accumulator.Accepts second)
    (hfir : first.checkpoint = none) (hsec : second.checkpoint = none)
    (coord : ChunkCoord) (place : LocalVoxelCoord) :
    evidenceAt ((accumulator.apply first).1.apply second).1.chunks coord place =
      (deltasAt first.voxelChunks coord place ++ deltasAt second.voxelChunks coord place).foldl
        VoxelEvidence.add (evidenceAt accumulator.chunks coord place) := by
  rw [evidenceAt_apply ((accepts_apply accumulator first second).mpr hsnd) hsec,
    evidenceAt_apply hfst hfir, foldl_append]

/-- Updates without checkpoint commute, and refreshed views are full ones. -/
theorem updates_commute_and_view_exact (registryHash : String → String → VoxelMap → String)
    (map : RegistryRef) (contract : VoxelMap) (start : VoxelMapAccumulator)
    (hnew : VoxelMapAccumulator.new registryHash map contract = .ok start)
    (updates : List MapUpdate) :
    (∀ first second, first.checkpoint = none → second.checkpoint = none →
      ∀ summary summary', ((start.replay updates).apply first).2 = .ok summary →
        ((start.replay updates).apply second).2 = .ok summary' →
      (∃ next, (((start.replay updates).apply first).1.apply second).2 = .ok next) ∧
      (∃ next, (((start.replay updates).apply second).1.apply first).2 = .ok next) ∧
      (∃ next, ((start.replay updates).apply
        ⟨first.voxelChunks ++ second.voxelChunks, none⟩).2 = .ok next) ∧
      (((start.replay updates).apply first).1.apply second).1.contents =
        (((start.replay updates).apply second).1.apply first).1.contents ∧
      (((start.replay updates).apply first).1.apply second).1.contents =
        ((start.replay updates).apply ⟨first.voxelChunks ++ second.voxelChunks, none⟩).1.contents) ∧
    (∀ update summary threshold before, ((start.replay updates).apply update).2 = .ok summary →
      (start.replay updates).viewerSnapshot threshold = .ok before →
      ∃ after, ((start.replay updates).apply update).1.viewerSnapshot threshold = .ok after ∧
        summary.changedChunks.foldl
          (refreshChunk ((start.replay updates).apply update).1 threshold)
          (viewOf before.chunks) = viewOf after.chunks) := by
  have hsparse := isSparse_replay (isSparse_new hnew).2 updates
  constructor
  · intro first second hfirstDeltas hsecondDeltas summary summary' hfirst hsecond
    have hfirst := accepts_of_apply_eq_ok hfirst
    have hsecond := accepts_of_apply_eq_ok hsecond
    have hboth := accepts_append hfirst hsecond
    refine ⟨⟨_, congrArg Prod.snd (apply_of_deltas
        ((accepts_apply _ first second).mpr hsecond) hsecondDeltas)⟩,
      ⟨_, congrArg Prod.snd (apply_of_deltas
        ((accepts_apply _ second first).mpr hfirst) hfirstDeltas)⟩,
      ⟨_, congrArg Prod.snd (apply_of_deltas hboth rfl)⟩, ?_, ?_⟩
    · apply contents_ext (isSparse_apply (isSparse_apply hsparse first) second)
        (isSparse_apply (isSparse_apply hsparse second) first)
      intro coord place
      rw [evidenceAt_apply_apply hfirst hsecond hfirstDeltas hsecondDeltas,
        evidenceAt_apply_apply hsecond hfirst hsecondDeltas hfirstDeltas]
      exact perm_append_comm.foldl_eq' (fun first _ second _ voxel =>
        voxel.add_right_comm first second) _
    · apply contents_ext (isSparse_apply (isSparse_apply hsparse first) second)
        (isSparse_apply hsparse _)
      intro coord place
      rw [evidenceAt_apply_apply hfirst hsecond hfirstDeltas hsecondDeltas,
        evidenceAt_apply hboth rfl, deltasAt_append]
  · intro update summary threshold before happly hbefore
    cases threshold with
    | nonFinite => cases hbefore
    | finite threshold => exact ⟨_, rfl, viewOf_apply happly hbefore rfl⟩

def sampleContract : VoxelMap where
  frame := ⟨"galbot", "world", "frame-hash"⟩
  voxelSizeM := .finite (1 / 2)
  chunkDimension := 64
  valueModel := .additiveOccupancyEvidence
  colorModel := some .additiveLinearRgbEvidence
  semanticClasses := ["wall"]

def sampleMap : RegistryRef := ⟨"galbot", "occupancy", "map-hash"⟩

def sampleStart : VoxelMapAccumulator := ⟨sampleMap, sampleContract, 0, ∅⟩

theorem new_sample : VoxelMapAccumulator.new (fun _ _ _ => "map-hash") sampleMap sampleContract =
      .ok sampleStart := by
  decide +kernel

def sampleUpdate (occupancy : ℚ) (color : Option ColorEvidenceDelta) : MapUpdate :=
  ⟨[⟨-1, 0, 0, [⟨1, 2, 3, .finite occupancy, [], color⟩]⟩], none⟩

theorem updates_commute_and_view_exact_sample :
    (sampleStart.apply (sampleUpdate 1 none)).2 = .ok ⟨1, [⟨-1, 0, 0⟩], 1⟩ ∧
    (sampleStart.apply (sampleUpdate (-1) none)).2 = .ok ⟨1, [⟨-1, 0, 0⟩], 1⟩ ∧
    ((sampleStart.apply (sampleUpdate 1 none)).1.apply (sampleUpdate (-1) none)).1.contents =
      ((sampleStart.apply (sampleUpdate (-1) none)).1.apply (sampleUpdate 1 none)).1.contents ∧
    ∃ before after, sampleStart.viewerSnapshot (.finite 0) = .ok before ∧
      (sampleStart.apply (sampleUpdate 1 none)).1.viewerSnapshot (.finite 0) = .ok after ∧
      [(⟨-1, 0, 0⟩ : ChunkCoord)].foldl
        (refreshChunk (sampleStart.apply (sampleUpdate 1 none)).1 (.finite 0))
        (viewOf before.chunks) = viewOf after.chunks := by
  have hfirst : (sampleStart.apply (sampleUpdate 1 none)).2 = .ok ⟨1, [⟨-1, 0, 0⟩], 1⟩ := by
    decide +kernel
  have hsecond : (sampleStart.apply (sampleUpdate (-1) none)).2 = .ok ⟨1, [⟨-1, 0, 0⟩], 1⟩ := by
    decide +kernel
  have hexact := updates_commute_and_view_exact _ sampleMap sampleContract sampleStart new_sample []
  refine ⟨hfirst, hsecond,
    (hexact.1 (sampleUpdate 1 none) (sampleUpdate (-1) none) rfl rfl _ _ hfirst hsecond).2.2.2.1, ?_⟩
  obtain ⟨after, hafter, hview⟩ := hexact.2 (sampleUpdate 1 none) _ (.finite 0) _ hfirst rfl
  exact ⟨_, after, rfl, hafter, hview⟩

end AukiSdk.Maps
