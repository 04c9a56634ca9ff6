import AukiSdk.Maps.Replay
import AukiSdk.Time.ClockSample

/-!
# Persistence of voxels

`VoxelPersistenceFilter` adds a voxel to the map, or takes it out, after a streak of
observations of one kind.
-/

namespace AukiSdk.Mappers

open AukiSdk.Foundation AukiSdk.Maps AukiSdk.Time List
open Std (ExtTreeMap TransOrd LawfulEqOrd TransCmp)

/-- Durations are in nanoseconds. -/
structure VoxelPersistenceConfig where
  confirmationDuration : ℕ
  minimumConfirmationObservations : UInt32
  maximumObservationGap : ℕ
  clearingDuration : ℕ

def durationNs (duration : ℕ) : Option ℤ := checked duration

def VoxelPersistenceConfig.validate (config : VoxelPersistenceConfig) : Bool :=
  0 < config.confirmationDuration ∧ 2 ≤ config.minimumConfirmationObservations ∧
    0 < config.maximumObservationGap ∧ 0 < config.clearingDuration ∧
    (durationNs config.confirmationDuration).isSome ∧
    (durationNs config.maximumObservationGap).isSome ∧ (durationNs config.clearingDuration).isSome

/-- The gap between two observations is no longer than the maximum. -/
def VoxelPersistenceConfig.continues (config : VoxelPersistenceConfig)
    (timestampNs earlierNs : ℤ) : Bool :=
  saturate (timestampNs - earlierNs) ≤ config.maximumObservationGap

structure VoxelKey where
  chunk : ChunkCoord
  voxel : LocalVoxelCoord
  deriving DecidableEq

instance : Ord VoxelKey := ⟨compareLex (compareOn VoxelKey.chunk) (compareOn VoxelKey.voxel)⟩

instance : TransOrd VoxelKey :=
  inferInstanceAs (TransCmp (compareLex (compareOn VoxelKey.chunk) (compareOn VoxelKey.voxel)))

instance : LawfulEqOrd VoxelKey where
  eq_of_compare {left right} heq := by
    have hfields : (compare left.chunk right.chunk).then (compare left.voxel right.voxel) = .eq :=
      heq
    simp only [Ordering.then_eq_eq, LawfulEqOrd.compare_eq_iff_eq] at hfields
    cases left
    cases right
    simpa using hfields

structure FrameObservation where
  occupied : Bool
  colorSums : ℚ × ℚ × ℚ
  colorWeight : ℚ

structure Candidate where
  firstHitNs : ℤ
  lastHitNs : ℤ
  hitFrames : ℕ
  colorSums : ℚ × ℚ × ℚ
  colorFrames : ℕ

inductive VoxelState where
  | candidate (candidate : Candidate)
  | confirmed (freeStreak : Option (ℤ × ℤ))

def FrameObservation.empty : FrameObservation := ⟨false, 0, 0⟩

def FrameObservation.add (observation : FrameObservation) (delta : VoxelDelta) :
    FrameObservation :=
  if 0 < delta.occupancyDelta.value then
    match delta.color with
    | none => { observation with occupied := true }
    | some color =>
      { occupied := true
        colorSums := observation.colorSums +
          (color.redSumDelta.value, color.greenSumDelta.value, color.blueSumDelta.value)
        colorWeight := observation.colorWeight + color.weightDelta.value }
  else
    observation

def normalizeFrame (raw : MapUpdate) : ExtTreeMap VoxelKey FrameObservation :=
  (placedDeltas raw.voxelChunks).foldl (fun observations placed =>
    SparseMap.store .empty (·.add placed.2) ⟨placed.1, placed.2.coord⟩ observations) ∅

def voxelDelta (key : VoxelKey) (occupancyDelta : ℚ) (color : Option ColorEvidenceDelta) :
    VoxelDelta :=
  ⟨key.voxel.x, key.voxel.y, key.voxel.z, .finite occupancyDelta, [], color⟩

def mapUpdate (deltas : List (VoxelKey × VoxelDelta)) : MapUpdate where
  voxelChunks :=
    (deltas.foldl (fun chunks entry =>
      SparseMap.store [] (· ++ [entry.2]) entry.1.chunk chunks) ∅).toList.map fun entry =>
        ⟨entry.1.x, entry.1.y, entry.1.z, entry.2⟩
  checkpoint := none

/-- The policy is validated, so its durations are what `duration_ns` makes of them. -/
structure VoxelPersistenceFilter where
  config : VoxelPersistenceConfig
  occupiedDelta : ℚ
  states : ExtTreeMap VoxelKey VoxelState
  valid : config.validate = true

namespace VoxelPersistenceFilter

def new (config : VoxelPersistenceConfig) (occupiedDelta : ℚ) (valid : config.validate = true) :
    VoxelPersistenceFilter :=
  ⟨config, occupiedDelta, ∅, valid⟩

variable (filter : VoxelPersistenceFilter) (timestampNs : ℤ)

def keeps : VoxelState → Bool
  | .candidate candidate => filter.config.continues timestampNs candidate.lastHitNs
  | .confirmed _ => true

def hit (observation : FrameObservation) (candidate : Candidate) : Candidate :=
  { candidate with
    lastHitNs := timestampNs
    hitFrames := min u32Max (candidate.hitFrames + 1)
    colorSums := if 0 < observation.colorWeight then
        (candidate.colorSums.1 + observation.colorSums.1 / observation.colorWeight,
          candidate.colorSums.2.1 + observation.colorSums.2.1 / observation.colorWeight,
          candidate.colorSums.2.2 + observation.colorSums.2.2 / observation.colorWeight)
      else candidate.colorSums
    colorFrames := if 0 < observation.colorWeight then min u32Max (candidate.colorFrames + 1)
      else candidate.colorFrames }

def color (candidate : Candidate) : Option ColorEvidenceDelta :=
  if 0 < candidate.colorFrames then
    some ⟨.finite (candidate.colorSums.1 / candidate.colorFrames),
      .finite (candidate.colorSums.2.1 / candidate.colorFrames),
      .finite (candidate.colorSums.2.2 / candidate.colorFrames), .finite 1⟩
  else none

/-- The next state after one more hit, and the delta that is emitted. -/
def countHit (key : VoxelKey) (observation : FrameObservation) (found : Candidate) :
    Option VoxelState × Option VoxelDelta :=
  let candidate := hit timestampNs observation found
  if filter.config.confirmationDuration ≤ saturate (timestampNs - candidate.firstHitNs) ∧
      filter.config.minimumConfirmationObservations.toNat ≤ candidate.hitFrames then
    (some (.confirmed none), some (voxelDelta key filter.occupiedDelta (color candidate)))
  else
    (some (.candidate candidate), none)

def start : Candidate := ⟨timestampNs, timestampNs, 0, 0, 0⟩

def observeHit (key : VoxelKey) (observation : FrameObservation) (prior : Option VoxelState) :
    Option VoxelState × Option VoxelDelta :=
  match prior with
  | some (.confirmed _) => (some (.confirmed none), none)
  | some (.candidate candidate) =>
    filter.countHit timestampNs key observation
      (if filter.config.continues timestampNs candidate.lastHitNs then candidate
        else start timestampNs)
  | none => filter.countHit timestampNs key observation (start timestampNs)

def observeFree (key : VoxelKey) (prior : Option VoxelState) :
    Option VoxelState × Option VoxelDelta :=
  match prior with
  | some (.confirmed freeStreak) =>
    let free := (freeStreak.filter fun streak => filter.config.continues timestampNs streak.2).getD
      (timestampNs, timestampNs)
    if filter.config.clearingDuration ≤ saturate (timestampNs - free.1) then
      (none, some (voxelDelta key (-filter.occupiedDelta) none))
    else
      (some (.confirmed (some (free.1, max timestampNs free.2))), none)
  -- free space cancels a candidate
  | _ => (none, none)

def observe (key : VoxelKey) (observation : FrameObservation) (prior : Option VoxelState) :
    Option VoxelState × Option VoxelDelta :=
  if observation.occupied then filter.observeHit timestampNs key observation prior
  else filter.observeFree timestampNs key prior

def observeNext
    (progress : ExtTreeMap VoxelKey VoxelState × List (VoxelKey × VoxelDelta))
    (entry : VoxelKey × FrameObservation) :
    ExtTreeMap VoxelKey VoxelState × List (VoxelKey × VoxelDelta) :=
  let next := filter.observe timestampNs entry.1 entry.2 progress.1[entry.1]?
  (progress.1.alter entry.1 fun _ => next.1,
    progress.2 ++ next.2.toList.map fun delta => (entry.1, delta))

def retained : ExtTreeMap VoxelKey VoxelState :=
  filter.states.filter fun _ state => filter.keeps timestampNs state

def apply (raw : MapUpdate) : VoxelPersistenceFilter × MapUpdate :=
  let result := (normalizeFrame raw).toList.foldl (filter.observeNext timestampNs)
    (filter.retained timestampNs, [])
  ({ filter with states := result.1 }, mapUpdate result.2)

end VoxelPersistenceFilter

section Loops

variable {κ ν δ : Type*} [DecidableEq κ]

/-- The values of a list of entries at one key, in order. -/
def entriesAt (entries : List (κ × δ)) (key : κ) : List δ :=
  entries.filterMap fun entry => if entry.1 = key then some entry.2 else none

theorem flatMap_eq_of_key {entries : List (κ × ν)} (key : κ) {f : κ × ν → List δ}
    (hnd : (entries.map Prod.fst).Nodup) (ho : ∀ entry ∈ entries, entry.1 ≠ key → f entry = []) :
    entries.flatMap f = (entriesAt entries key).flatMap fun value => f (key, value) := by
  induction entries with
  | nil => rfl
  | cons entry rest ih =>
    rw [map_cons, nodup_cons] at hnd
    rw [forall_mem_cons] at ho
    rw [flatMap_cons, ih hnd.2 ho.2, entriesAt, entriesAt, filterMap_cons]
    by_cases hkey : entry.1 = key
    · subst hkey
      simp
    · rw [ho.1 hkey, if_neg hkey, nil_append]

variable [Ord κ] [TransOrd κ] [LawfulEqOrd κ]

theorem getElem?_foldl_store (zero : ν) (change : δ → ν → ν) (entries : List (κ × δ))
    (map : ExtTreeMap κ ν) (key : κ) :
    (entries.foldl (fun map entry =>
        SparseMap.store zero (change entry.2) entry.1 map) map)[key]? =
      if entriesAt entries key = [] then map[key]?
      else some ((entriesAt entries key).foldl (fun value found => change found value)
        (map[key]?.getD zero)) := by
  induction entries generalizing map with
  | nil => rfl
  | cons entry rest ih =>
    rw [foldl_cons, ih, entriesAt, entriesAt, filterMap_cons, SparseMap.store]
    by_cases hkey : entry.1 = key
    · subst hkey
      rw [ExtTreeMap.getElem?_alter_self, if_pos rfl, if_neg (cons_ne_nil _ _), foldl_cons,
        Option.getD_some]
      split
      · rename_i hnil
        rw [hnil]
        rfl
      · rfl
    · rw [SparseMap.getElem?_alter_of_ne (Ne.symm hkey), if_neg hkey]

theorem entriesAt_toList (map : ExtTreeMap κ ν) (key : κ) :
    entriesAt map.toList key = map[key]?.toList := by
  have hm : ∀ value, value ∈ entriesAt map.toList key ↔ map[key]? = some value := by
    intro value
    simp only [entriesAt, mem_filterMap, Option.ite_none_right_eq_some, Option.some.injEq,
      Prod.exists, ExtTreeMap.mem_toList_iff_getElem?_eq_some]
    constructor
    · rintro ⟨found, _, hf, rfl, rfl⟩
      exact hf
    · intro hf
      exact ⟨key, value, hf, rfl, rfl⟩
  have hlen : (entriesAt map.toList key).length = map[key]?.toList.length := by
    have hcnt := FiniteMap.countP_toList_key map key fun _ => true
    have hall : map[key]?.filter (fun _ => true) = map[key]? := by cases map[key]? <;> rfl
    rw [← hall, ← hcnt, entriesAt, length_filterMap_eq_countP]
    refine countP_congr fun entry _ => ?_
    by_cases hkey : entry.1 = key <;> simp [hkey]
  cases hf : map[key]? with
  | none =>
    rw [hf] at hlen
    exact length_eq_zero_iff.mp hlen
  | some value =>
    rw [hf] at hlen
    obtain ⟨found, hfound⟩ := length_eq_one_iff.mp hlen
    have hsm := (hm found).mp (by rw [hfound]; exact mem_cons_self)
    rw [hfound, ← Option.some.inj (hf.symm.trans hsm)]
    rfl

end Loops

def deltasFor (update : MapUpdate) (key : VoxelKey) : List VoxelDelta :=
  entriesAt ((placedDeltas update.voxelChunks).map fun placed =>
    (⟨placed.1, placed.2.coord⟩, placed.2)) key

theorem getElem?_normalizeFrame (raw : MapUpdate) (key : VoxelKey) :
    (normalizeFrame raw)[key]? = if deltasFor raw key = [] then none
      else some ((deltasFor raw key).foldl FrameObservation.add .empty) := by
  have hfold := getElem?_foldl_store FrameObservation.empty
    (fun delta observation => observation.add delta)
    ((placedDeltas raw.voxelChunks).map fun placed =>
      (VoxelKey.mk placed.1 placed.2.coord, placed.2)) ∅ key
  rw [foldl_map, ExtTreeMap.getElem?_empty] at hfold
  exact hfold

theorem deltasFor_mapUpdate {emitted : List (VoxelKey × VoxelDelta)}
    (hcoo : ∀ entry ∈ emitted, entry.2.coord = entry.1.voxel) (key : VoxelKey) :
    deltasFor (mapUpdate emitted) key = entriesAt emitted key := by
  set chunks : ExtTreeMap ChunkCoord (List VoxelDelta) := emitted.foldl (fun chunks entry =>
    SparseMap.store [] (· ++ [entry.2]) entry.1.chunk chunks) ∅ with hchu
  set inChunk := entriesAt (emitted.map fun entry => (entry.1.chunk, entry.2)) key.chunk with hinc
  have hst : chunks[key.chunk]? = if inChunk = [] then none else some inChunk := by
    have hfold := getElem?_foldl_store ([] : List VoxelDelta)
      (fun delta voxels => voxels ++ [delta])
      (emitted.map fun entry => (entry.1.chunk, entry.2)) ∅ key.chunk
    rw [foldl_map, ExtTreeMap.getElem?_empty, Option.getD_none, foldl_append_eq_append, ← hinc,
      nil_append, ← flatMap_def, flatMap_singleton'] at hfold
    exact hfold
  have hpla : placedDeltas (mapUpdate emitted).voxelChunks =
      chunks.toList.flatMap fun entry => entry.2.map fun delta => (entry.1, delta) := by
    rw [placedDeltas, mapUpdate, flatMap_map]
    rfl
  have hcat : (if inChunk = [] then none else some inChunk).toList.flatten = inChunk := by
    split
    · rename_i hnil
      rw [hnil]
      rfl
    · exact flatten_singleton
  rw [deltasFor, hpla, entriesAt, filterMap_map, filterMap_flatMap, flatMap_eq_of_key key.chunk
    (FiniteMap.nodup_map_fst_toList chunks) ?_, entriesAt_toList, hst]
  · simp only [filterMap_map]
    rw [flatMap_def, ← filterMap_flatten, hcat, hinc, entriesAt, filterMap_map,
      filterMap_filterMap]
    refine filterMap_congr fun entry hm => ?_
    have hcoo := hcoo entry hm
    obtain ⟨⟨chunk, voxel⟩, delta⟩ := entry
    by_cases hchk : chunk = key.chunk
    · simp [hchk, hcoo]
    · have hne : (⟨chunk, voxel⟩ : VoxelKey) ≠ key := fun heq => hchk (congrArg VoxelKey.chunk heq)
      simp [hchk, hne]
  · intro entry _ hne
    rw [filterMap_map, filterMap_eq_nil_iff]
    intro delta _
    rw [Function.comp_apply, Function.comp_apply, if_neg]
    intro heq
    exact hne (congrArg VoxelKey.chunk heq)

namespace VoxelPersistenceFilter

section Apply

variable {filter : VoxelPersistenceFilter} {timestampNs : ℤ}

theorem coord_observe {key : VoxelKey} {observation : FrameObservation}
    {prior : Option VoxelState} {delta : VoxelDelta}
    (hdel : (filter.observe timestampNs key observation prior).2 = some delta) :
    delta.coord = key.voxel := by
  have hcnt : ∀ found, (filter.countHit timestampNs key observation found).2 = some delta →
      delta.coord = key.voxel := by
    intro found hdel
    rw [countHit] at hdel
    split at hdel <;> cases hdel
    rfl
  rw [observe] at hdel
  split at hdel <;> rcases prior with _ | candidate | freeStreak
  · exact hcnt _ hdel
  · exact hcnt _ hdel
  · cases hdel
  · cases hdel
  · cases hdel
  · rw [observeFree] at hdel
    split at hdel <;> cases hdel
    rfl

variable (entries : List (VoxelKey × FrameObservation)) {key : VoxelKey}
  (progress : ExtTreeMap VoxelKey VoxelState × List (VoxelKey × VoxelDelta))

theorem entriesAt_append {κ δ : Type*} [DecidableEq κ] (first second : List (κ × δ)) (key : κ) :
    entriesAt (first ++ second) key = entriesAt first key ++ entriesAt second key :=
  filterMap_append

theorem foldl_observeNext (filter : VoxelPersistenceFilter) (timestampNs : ℤ) (key : VoxelKey)
    (hnd : (entries.map Prod.fst).Nodup) :
    let after := entries.foldl (filter.observeNext timestampNs) progress
    match entriesAt entries key with
    | [] => after.1[key]? = progress.1[key]? ∧ entriesAt after.2 key = entriesAt progress.2 key
    | observation :: _ =>
      let next := filter.observe timestampNs key observation progress.1[key]?
      after.1[key]? = next.1 ∧
        entriesAt after.2 key = entriesAt progress.2 key ++ next.2.toList := by
  induction entries generalizing progress with
  | nil => exact ⟨rfl, rfl⟩
  | cons entry rest ih =>
    rw [map_cons, nodup_cons] at hnd
    have ih := ih (filter.observeNext timestampNs progress entry) hnd.2
    rw [foldl_cons, entriesAt, filterMap_cons]
    by_cases hkey : entry.1 = key
    · subst hkey
      have hnone : entriesAt rest entry.1 = [] := by
        rw [entriesAt, filterMap_eq_nil_iff]
        intro found hf
        rw [if_neg]
        intro heq
        exact hnd.1 (mem_map.mpr ⟨found, hf, heq⟩)
      rw [hnone] at ih
      rw [if_pos rfl]
      refine ⟨ih.1.trans (ExtTreeMap.getElem?_alter_self ..), ih.2.trans ?_⟩
      rw [observeNext, entriesAt_append]
      congr 1
      rw [entriesAt, filterMap_map]
      simp
    · have hsm : (filter.observeNext timestampNs progress entry).1[key]? = progress.1[key]? :=
        SparseMap.getElem?_alter_of_ne (Ne.symm hkey)
      have hem : entriesAt (filter.observeNext timestampNs progress entry).2 key =
          entriesAt progress.2 key := by
        rw [observeNext, entriesAt_append, append_right_eq_self, entriesAt, filterMap_map]
        simp [hkey]
      rw [if_neg hkey]
      rw [hsm, hem] at ih
      exact ih

theorem coord_foldl_observeNext
    (hpro : ∀ entry ∈ progress.2, entry.2.coord = entry.1.voxel) :
    ∀ entry ∈ (entries.foldl (filter.observeNext timestampNs) progress).2,
      entry.2.coord = entry.1.voxel := by
  induction entries generalizing progress with
  | nil => exact hpro
  | cons entry rest ih =>
    refine ih _ fun found hf => ?_
    rw [observeNext, mem_append, mem_map] at hf
    rcases hf with hf | ⟨delta, hdel, rfl⟩
    · exact hpro found hf
    · exact coord_observe (Option.mem_toList.mp hdel)

variable (filter timestampNs) (raw : MapUpdate) (key : VoxelKey)

theorem apply_at :
    let applied := filter.apply timestampNs raw
    let prior := filter.states[key]?.filter (filter.keeps timestampNs)
    match (normalizeFrame raw)[key]? with
    | none => applied.1.states[key]? = prior ∧ deltasFor applied.2 key = []
    | some observation =>
      let next := filter.observe timestampNs key observation prior
      applied.1.states[key]? = next.1 ∧ deltasFor applied.2 key = next.2.toList := by
  have hprior : (filter.retained timestampNs)[key]? =
      filter.states[key]?.filter (filter.keeps timestampNs) := ExtTreeMap.getElem?_filter'
  have hfold := foldl_observeNext (normalizeFrame raw).toList (filter.retained timestampNs, [])
    filter timestampNs key (FiniteMap.nodup_map_fst_toList _)
  have hupd : deltasFor (filter.apply timestampNs raw).2 key = entriesAt
      ((normalizeFrame raw).toList.foldl (filter.observeNext timestampNs)
        (filter.retained timestampNs, [])).2 key :=
    deltasFor_mapUpdate (coord_foldl_observeNext _ _ fun entry hm => by cases hm) key
  rw [entriesAt_toList, hprior] at hfold
  cases hobs : (normalizeFrame raw)[key]? with
  | none =>
    rw [hobs] at hfold
    exact ⟨hfold.1, hupd.trans hfold.2⟩
  | some observation =>
    rw [hobs] at hfold
    exact ⟨hfold.1, hupd.trans hfold.2⟩

end Apply

end VoxelPersistenceFilter

/-- A frame; the voxelizer refuses evidence that is not finite. -/
structure RawFrame where
  timestampNs : ℤ
  update : MapUpdate
  inI64 : InI64 timestampNs
  finite : ∀ placed ∈ placedDeltas update.voxelChunks, placed.2.occupancyDelta.isFinite = true

/-- Whether the frame shows the voxel, and as occupied. -/
def RawFrame.shows (key : VoxelKey) (frame : RawFrame) : Option (ℤ × Bool) :=
  if deltasFor frame.update key = [] then none
  else some (frame.timestampNs, (deltasFor frame.update key).any fun delta =>
    0 < delta.occupancyDelta.value)

theorem occupied_foldl_add (deltas : List VoxelDelta) (observation : FrameObservation) :
    (deltas.foldl FrameObservation.add observation).occupied =
      (observation.occupied || deltas.any fun delta => 0 < delta.occupancyDelta.value) := by
  induction deltas generalizing observation with
  | nil => exact (Bool.or_false _).symm
  | cons delta rest ih =>
    rw [foldl_cons, ih, any_cons, FrameObservation.add]
    split
    · rename_i hpos
      rcases delta.color <;> simp [hpos]
    · rename_i hpos
      simp [hpos]

/-- The oldest and the newest of some times, of which the newest comes first. -/
def ends (times : List ℤ) : Option (ℤ × ℤ) :=
  times.getLast?.bind fun oldest => times.head?.map fun newest => (oldest, newest)

section Hysteresis

variable (config : VoxelPersistenceConfig)

/-- The times of the last observations of one kind with no long gap, newest first. -/
def streak (kind : Bool) : List (ℤ × Bool) → List ℤ
  | [] => []
  | seen :: earlier =>
    if seen.2 = kind then
      seen.1 ::
        if (ends (streak kind earlier)).any fun span => config.continues seen.1 span.2 then
          streak kind earlier
        else []
    else []

def lasts (duration : ℕ) (times : List ℤ) : Bool :=
  (ends times).any fun span => duration ≤ saturate (span.2 - span.1)

/-- Enough hits confirm a voxel, and lasting free space clears it. -/
def confirmedAt : List (ℤ × Bool) → Bool
  | [] => false
  | seen :: earlier =>
    if confirmedAt earlier then
      !lasts config.clearingDuration (streak config false (seen :: earlier))
    else
      lasts config.confirmationDuration (streak config true (seen :: earlier)) &&
        config.minimumConfirmationObservations.toNat ≤
          (streak config true (seen :: earlier)).length

/-- What a state says about the observations until now. -/
def Reads (nowNs : ℤ) (seen : List (ℤ × Bool)) : Option VoxelState → Prop
  | none => confirmedAt config seen = false ∧
      ∀ span ∈ ends (streak config true seen), config.continues nowNs span.2 = false
  | some (.candidate candidate) => confirmedAt config seen = false ∧
      ends (streak config true seen) = some (candidate.firstHitNs, candidate.lastHitNs) ∧
      candidate.hitFrames = min u32Max (streak config true seen).length
  | some (.confirmed freeStreak) => confirmedAt config seen = true ∧
      ends (streak config false seen) = freeStreak

end Hysteresis

/-- The evidence for a voxel that becomes confirmed, or is cleared. -/
def evidenceOf (occupiedDelta : ℚ) : Bool → Bool → List Number
  | false, true => [.finite occupiedDelta]
  | true, false => [.finite (-occupiedDelta)]
  | _, _ => []

theorem saturate_mono {earlier later : ℤ} (hle : earlier ≤ later) :
    saturate earlier ≤ saturate later :=
  max_le_max le_rfl (min_le_min le_rfl hle)

section Streak

variable {config : VoxelPersistenceConfig} {kind : Bool} {timeNs : ℤ} {seen : List (ℤ × Bool)}

theorem ends_cons (times : List ℤ) :
    ends (timeNs :: times) = some (((ends times).map Prod.fst).getD timeNs, timeNs) := by
  cases times with
  | nil => rfl
  | cons last rest =>
    rw [ends, ends, getLast?_cons_cons, getLast?_cons]
    rfl

theorem ends_streak_cons : ends (streak config kind ((timeNs, kind) :: seen)) =
    some ((((ends (streak config kind seen)).filter fun span =>
      config.continues timeNs span.2).map Prod.fst).getD timeNs, timeNs) := by
  rw [streak, if_pos rfl, ends_cons]
  cases hspan : ends (streak config kind seen) with
  | none => rfl
  | some span =>
    rw [Option.any_some, Option.filter_some]
    dsimp only
    split
    · rw [hspan]
    · rfl

theorem mem_streak {time : ℤ} (htime : time ∈ streak config kind seen) :
    ∃ found ∈ seen, found.1 = time := by
  induction seen with
  | nil => cases htime
  | cons found earlier ih =>
    rw [streak] at htime
    split at htime
    · rcases mem_cons.mp htime with rfl | hm
      · exact ⟨found, mem_cons_self, rfl⟩
      · split at hm
        · obtain ⟨found, hf, heq⟩ := ih hm
          exact ⟨found, mem_cons_of_mem _ hf, heq⟩
        · cases hm
    · cases htime

theorem newest_le {span : ℤ × ℤ} (hspan : ends (streak config kind seen) = some span)
    (hpast : ∀ found ∈ seen, found.1 ≤ timeNs) : span.2 ≤ timeNs := by
  cases hstr : streak config kind seen with
  | nil =>
    rw [hstr] at hspan
    cases hspan
  | cons newest rest =>
    rw [hstr, ends_cons] at hspan
    cases hspan
    obtain ⟨found, hf, rfl⟩ := mem_streak (hstr ▸ mem_cons_self)
    exact hpast found hf

end Streak

section Observe

open VoxelPersistenceFilter

variable {filter : VoxelPersistenceFilter} {nowNs timestampNs : ℤ} {seen : List (ℤ × Bool)}
  {state : Option VoxelState}

theorem Reads.retain (hread : Reads filter.config nowNs seen state) (hle : nowNs ≤ timestampNs) :
    Reads filter.config timestampNs seen (state.filter (filter.keeps timestampNs)) := by
  rcases state with _ | candidate | freeStreak
  · refine ⟨hread.1, fun span hspan => ?_⟩
    have hgap := hread.2 span hspan
    rw [VoxelPersistenceConfig.continues, decide_eq_false_iff_not, not_le] at hgap ⊢
    exact hgap.trans_le (saturate_mono (by omega))
  · by_cases hkeep : filter.keeps timestampNs (.candidate candidate) = true
    · rw [Option.filter_some_pos hkeep]
      exact hread
    · rw [Option.filter_some_neg (Bool.eq_false_iff.mpr hkeep)]
      refine ⟨hread.1, fun span hspan => ?_⟩
      rw [hread.2.1] at hspan
      cases hspan
      exact Bool.eq_false_iff.mpr hkeep
  · exact hread

variable (filter timestampNs seen)

/-- An observation has the effect of the rule on the state and on what is emitted. -/
def FollowsRule (occupied : Bool) (next : Option VoxelState × Option VoxelDelta) : Prop :=
  Reads filter.config timestampNs ((timestampNs, occupied) :: seen) next.1 ∧
    next.2.toList.map VoxelDelta.occupancyDelta = evidenceOf filter.occupiedDelta
      (confirmedAt filter.config seen) (confirmedAt filter.config ((timestampNs, occupied) :: seen))

variable {filter timestampNs seen} {key : VoxelKey} {observation : FrameObservation}

theorem followsRule_countHit {found : Candidate} (hnot : confirmedAt filter.config seen = false)
    (hspan : ends (streak filter.config true ((timestampNs, true) :: seen)) =
      some (found.firstHitNs, timestampNs))
    (hhits : min u32Max (found.hitFrames + 1) =
      min u32Max (streak filter.config true ((timestampNs, true) :: seen)).length) :
    FollowsRule filter timestampNs seen true
      (filter.countHit timestampNs key observation found) := by
  have hmin : filter.config.minimumConfirmationObservations.toNat ≤ u32Max :=
    Nat.le_of_lt_succ (UInt32.toNat_lt _)
  have hconf : confirmedAt filter.config ((timestampNs, true) :: seen) = true ↔
      filter.config.confirmationDuration ≤
          saturate (timestampNs - (hit timestampNs observation found).firstHitNs) ∧
        filter.config.minimumConfirmationObservations.toNat ≤
          (hit timestampNs observation found).hitFrames := by
    rw [confirmedAt, hnot, if_neg Bool.false_ne_true, lasts, hspan]
    simp [hit, hhits, hmin]
  rw [FollowsRule, hnot]
  by_cases hyes : confirmedAt filter.config ((timestampNs, true) :: seen) = true
  · rw [countHit, if_pos (hconf.mp hyes), hyes]
    exact ⟨⟨hyes, rfl⟩, rfl⟩
  · rw [countHit, if_neg (mt hconf.mpr hyes)]
    rw [Bool.not_eq_true] at hyes
    rw [hyes]
    exact ⟨⟨hyes, hspan, hhits⟩, rfl⟩

theorem followsRule_observeHit (hread : Reads filter.config timestampNs seen state) :
    FollowsRule filter timestampNs seen true
      (filter.observeHit timestampNs key observation state) := by
  rcases state with _ | candidate | freeStreak
  · have hany : (ends (streak filter.config true seen)).any (fun span =>
        filter.config.continues timestampNs span.2) = false := by
      rw [Option.any_eq_false]
      exact hread.2
    refine followsRule_countHit hread.1 ?_ ?_ <;> rw [streak, if_pos rfl, hany] <;> rfl
  · obtain ⟨hnot, hspan, hhits⟩ := hread
    refine followsRule_countHit hnot ?_ ?_
    · rw [ends_streak_cons, hspan, Option.filter_some]
      split <;> rfl
    · rw [streak, if_pos rfl, hspan, Option.any_some]
      split
      · rw [hhits, length_cons]
        omega
      · rfl
  · have hyes : confirmedAt filter.config ((timestampNs, true) :: seen) = true := by
      rw [confirmedAt, hread.1]
      rfl
    rw [FollowsRule, hyes, hread.1]
    exact ⟨⟨hyes, rfl⟩, rfl⟩

theorem followsRule_observeFree (hread : Reads filter.config timestampNs seen state)
    (hpast : ∀ found ∈ seen, found.1 ≤ timestampNs) :
    FollowsRule filter timestampNs seen false (filter.observeFree timestampNs key state) := by
  have hcancel : confirmedAt filter.config seen = false →
      FollowsRule filter timestampNs seen false (none, none) := by
    intro hnot
    have hno : confirmedAt filter.config ((timestampNs, false) :: seen) = false := by
      rw [confirmedAt, hnot]
      rfl
    rw [FollowsRule, hno, hnot]
    exact ⟨⟨hno, fun span hspan => by cases hspan⟩, rfl⟩
  rcases state with _ | candidate | freeStreak
  · exact hcancel hread.1
  · exact hcancel hread.1
  · obtain ⟨hconf, hfree⟩ := hread
    set free := (freeStreak.filter fun streak => filter.config.continues timestampNs streak.2).getD
      (timestampNs, timestampNs) with hdef
    have hspan : ends (streak filter.config false ((timestampNs, false) :: seen)) =
        some (free.1, timestampNs) ∧ max timestampNs free.2 = timestampNs := by
      rw [ends_streak_cons, hfree, hdef]
      cases hkept : freeStreak.filter fun span => filter.config.continues timestampNs span.2 with
      | none => exact ⟨rfl, max_self _⟩
      | some span =>
        rw [Option.filter_eq_some_iff] at hkept
        exact ⟨rfl, max_eq_left (newest_le (hfree.trans hkept.1) hpast)⟩
    have hrule : confirmedAt filter.config ((timestampNs, false) :: seen) =
        !decide (filter.config.clearingDuration ≤ saturate (timestampNs - free.1)) := by
      rw [confirmedAt, hconf, if_pos rfl, lasts, hspan.1]
      rfl
    rw [FollowsRule, hconf]
    by_cases hclr : filter.config.clearingDuration ≤ saturate (timestampNs - free.1)
    · rw [decide_eq_true hclr] at hrule
      rw [observeFree, if_pos hclr, hrule]
      exact ⟨⟨hrule, fun span hspan => by cases hspan⟩, rfl⟩
    · rw [decide_eq_false hclr] at hrule
      rw [observeFree, if_neg hclr, hrule, hspan.2]
      exact ⟨⟨hrule, hspan.1⟩, rfl⟩

end Observe

namespace VoxelPersistenceFilter

variable (filter : VoxelPersistenceFilter)

/-- The filter after frames of which the newest comes first, and its updates, oldest first. -/
def run : List RawFrame → VoxelPersistenceFilter × List MapUpdate
  | [] => (filter, [])
  | frame :: earlier =>
    let applied := (run earlier).1.apply frame.timestampNs frame.update
    (applied.1, (run earlier).2 ++ [applied.2])

end VoxelPersistenceFilter

/-- What the rule emits for a voxel at each frame, oldest first. -/
def evidenceTrace (config : VoxelPersistenceConfig) (occupiedDelta : ℚ) (key : VoxelKey) :
    List RawFrame → List (List Number)
  | [] => []
  | frame :: earlier => evidenceTrace config occupiedDelta key earlier ++
      [evidenceOf occupiedDelta (confirmedAt config (earlier.filterMap (RawFrame.shows key)))
        (confirmedAt config ((frame :: earlier).filterMap (RawFrame.shows key)))]

def emittedFor (key : VoxelKey) (updates : List MapUpdate) : List (List Number) :=
  updates.map fun update => (deltasFor update key).map VoxelDelta.occupancyDelta

section Run

variable {key : VoxelKey} {earlier : List RawFrame}

theorem follows_apply (filter : VoxelPersistenceFilter) (frame : RawFrame) {nowNs : ℤ}
    (hread : Reads filter.config nowNs (earlier.filterMap (RawFrame.shows key)) filter.states[key]?)
    (hnow : nowNs ≤ frame.timestampNs)
    (hpast : ∀ past ∈ earlier, past.timestampNs ≤ frame.timestampNs) :
    Reads filter.config frame.timestampNs ((frame :: earlier).filterMap (RawFrame.shows key))
        (filter.apply frame.timestampNs frame.update).1.states[key]? ∧
      (deltasFor (filter.apply frame.timestampNs frame.update).2 key).map
          VoxelDelta.occupancyDelta = evidenceOf filter.occupiedDelta
        (confirmedAt filter.config (earlier.filterMap (RawFrame.shows key)))
        (confirmedAt filter.config ((frame :: earlier).filterMap (RawFrame.shows key))) := by
  have hret := hread.retain hnow
  have happ := filter.apply_at frame.timestampNs frame.update key
  rw [getElem?_normalizeFrame] at happ
  rw [filterMap_cons, RawFrame.shows]
  by_cases hnil : deltasFor frame.update key = []
  · rw [if_pos hnil] at happ ⊢
    dsimp only at happ ⊢
    rw [happ.1, happ.2]
    refine ⟨hret, ?_⟩
    cases confirmedAt filter.config (earlier.filterMap (RawFrame.shows key)) <;> rfl
  · rw [if_neg hnil] at happ ⊢
    have hocc : ((deltasFor frame.update key).foldl FrameObservation.add .empty).occupied =
        (deltasFor frame.update key).any fun delta => 0 < delta.occupancyDelta.value :=
      occupied_foldl_add _ .empty
    dsimp only at happ ⊢
    rw [happ.1, happ.2, ← hocc, VoxelPersistenceFilter.observe]
    split
    · rename_i hhit
      rw [hhit]
      exact followsRule_observeHit hret
    · rename_i hfree
      rw [Bool.not_eq_true] at hfree
      rw [hfree]
      refine followsRule_observeFree hret fun found hf => ?_
      obtain ⟨past, hm, hsh⟩ := mem_filterMap.mp hf
      rw [RawFrame.shows, Option.ite_none_left_eq_some] at hsh
      rw [← Option.some.inj hsh.2]
      exact hpast past hm

variable {config : VoxelPersistenceConfig} {occupiedDelta : ℚ} {frames : List RawFrame}

/-- The invariant of a run in the order of time. -/
theorem follows_run (hval : config.validate = true)
    (hord : frames.Pairwise fun later earlier => earlier.timestampNs ≤ later.timestampNs)
    {nowNs : ℤ} (hnow : ∀ frame ∈ frames, frame.timestampNs ≤ nowNs) :
    let result := (VoxelPersistenceFilter.new config occupiedDelta hval).run frames
    (result.1.config = config ∧ result.1.occupiedDelta = occupiedDelta) ∧
      (∃ lastNs ≤ nowNs, Reads config lastNs (frames.filterMap (RawFrame.shows key))
        result.1.states[key]?) ∧
      emittedFor key result.2 = evidenceTrace config occupiedDelta key frames := by
  induction frames generalizing nowNs with
  | nil =>
    refine ⟨⟨rfl, rfl⟩, ⟨nowNs, le_rfl, ?_⟩, rfl⟩
    rw [VoxelPersistenceFilter.run, VoxelPersistenceFilter.new, ExtTreeMap.getElem?_empty]
    exact ⟨rfl, fun span hspan => by cases hspan⟩
  | cons frame earlier ih =>
    rw [pairwise_cons] at hord
    obtain ⟨hsame, ⟨lastNs, hle, hread⟩, htrace⟩ := ih hord.2 hord.1
    have hfol := follows_apply
      ((VoxelPersistenceFilter.new config occupiedDelta hval).run earlier).1 frame
      (by rw [hsame.1]; exact hread) hle hord.1
    rw [hsame.1, hsame.2] at hfol
    refine ⟨hsame, ⟨frame.timestampNs, hnow frame mem_cons_self, hfol.1⟩, ?_⟩
    rw [VoxelPersistenceFilter.run, emittedFor, map_append, map_singleton, hfol.2]
    exact congrArg (· ++ _) htrace

/-- Along every run in the order of time, the filter emits for each voxel what the rule does:
once when enough hits without a long gap confirm it, and once when free space has lasted. -/
theorem voxel_persistence_rule (config : VoxelPersistenceConfig) (occupiedDelta : ℚ)
    (hval : config.validate = true) (frames : List RawFrame)
    (hord : frames.Pairwise fun later earlier => earlier.timestampNs ≤ later.timestampNs)
    (key : VoxelKey) :
    emittedFor key ((VoxelPersistenceFilter.new config occupiedDelta hval).run frames).2 =
      evidenceTrace config occupiedDelta key frames :=
  (follows_run hval hord fun frame _ => frame.inI64.2).2.2

end Run

section Map

variable {accumulator : VoxelMapAccumulator} {key : VoxelKey}

theorem sum_evidenceTrace (config : VoxelPersistenceConfig) (occupiedDelta : ℚ)
    (frames : List RawFrame) :
    ((evidenceTrace config occupiedDelta key frames).flatten.map Number.value).sum =
      if confirmedAt config (frames.filterMap (RawFrame.shows key)) then occupiedDelta else 0 := by
  induction frames with
  | nil => rfl
  | cons frame earlier ih =>
    rw [evidenceTrace, flatten_append, flatten_singleton, map_append, sum_append, ih]
    cases confirmedAt config (earlier.filterMap (RawFrame.shows key)) <;>
      cases confirmedAt config ((frame :: earlier).filterMap (RawFrame.shows key)) <;>
        simp [evidenceOf, Number.value]

theorem occupancy_foldl_add (deltas : List VoxelDelta) (voxel : VoxelEvidence) :
    (deltas.foldl VoxelEvidence.add voxel).occupancy =
      voxel.occupancy + (deltas.map fun delta => delta.occupancyDelta.value).sum := by
  induction deltas generalizing voxel with
  | nil => exact (add_zero _).symm
  | cons delta rest ih => rw [foldl_cons, ih, map_cons, sum_cons, VoxelEvidence.add, add_assoc]

theorem sum_deltasAt (update : MapUpdate) (key : VoxelKey) :
    ((deltasAt update.voxelChunks key.chunk key.voxel).map fun delta =>
        delta.occupancyDelta.value).sum =
      ((deltasFor update key).map fun delta => delta.occupancyDelta.value).sum := by
  rw [deltasAt, deltasFor, entriesAt, filterMap_map]
  induction placedDeltas update.voxelChunks with
  | nil => rfl
  | cons placed rest ih =>
    rw [filterMap_cons, filterMap_cons, Function.comp_apply]
    by_cases hkey : (⟨placed.1, placed.2.coord⟩ : VoxelKey) = key
    · subst hkey
      rw [if_pos rfl]
      by_cases hcha : placed.2.changesValue = true
      · rw [if_pos ⟨hcha, rfl, rfl⟩, map_cons, map_cons, sum_cons, sum_cons, ih]
      · have hzero : placed.2.occupancyDelta.value = 0 := by
          simp only [VoxelDelta.changesValue, Bool.or_eq_true, decide_eq_true_eq, not_or,
            not_not] at hcha
          exact hcha.1.1
        rw [if_neg fun h => hcha h.1, map_cons, sum_cons, hzero, zero_add]
        exact ih
    · rw [if_neg hkey, if_neg]
      · exact ih
      · rintro ⟨-, hchk, hvox⟩
        apply hkey
        rw [hchk, hvox]

theorem occupancy_replay {updates : List MapUpdate}
    (hacc : ∀ update ∈ updates, accumulator.Accepts update)
    (hdel : ∀ update ∈ updates, update.checkpoint = none) :
    (evidenceAt (accumulator.replay updates).chunks key.chunk key.voxel).occupancy =
      (evidenceAt accumulator.chunks key.chunk key.voxel).occupancy +
        ((emittedFor key updates).flatten.map Number.value).sum := by
  induction updates generalizing accumulator with
  | nil => exact (add_zero _).symm
  | cons update rest ih =>
    rw [forall_mem_cons] at hacc hdel
    have ih := @ih (accumulator.apply update).1
      (fun later hm => (accepts_apply accumulator update later).mpr (hacc.2 later hm)) hdel.2
    rw [evidenceAt_apply hacc.1 hdel.1, occupancy_foldl_add, sum_deltasAt] at ih
    rw [emittedFor, map_cons, flatten_cons, map_append, sum_append, map_map, ← add_assoc]
    exact ih

end Map

theorem checkpoint_run (filter : VoxelPersistenceFilter) (frames : List RawFrame) :
    ∀ update ∈ (filter.run frames).2, update.checkpoint = none := by
  induction frames with
  | nil => exact fun update hm => by cases hm
  | cons frame earlier ih =>
    intro update hm
    rcases mem_append.mp hm with hm | hm
    · exact ih update hm
    · rw [mem_singleton.mp hm]
      rfl

/-- In a map that accepts what the filter emits, the occupancy at each voxel is that of a
confirmed voxel, or zero. -/
theorem persistent_map_holds_confirmed {registryHash : String → String → VoxelMap → String}
    {map : RegistryRef} {contract : VoxelMap} {accumulator : VoxelMapAccumulator}
    (hnew : VoxelMapAccumulator.new registryHash map contract = .ok accumulator)
    (config : VoxelPersistenceConfig) (occupiedDelta : ℚ) (hval : config.validate = true)
    (frames : List RawFrame)
    (hord : frames.Pairwise fun later earlier => earlier.timestampNs ≤ later.timestampNs)
    (hacc : ∀ update ∈ ((VoxelPersistenceFilter.new config occupiedDelta hval).run frames).2,
      accumulator.Accepts update) (key : VoxelKey) :
    (evidenceAt (accumulator.replay ((VoxelPersistenceFilter.new config occupiedDelta hval).run
        frames).2).chunks key.chunk key.voxel).occupancy =
      if confirmedAt config (frames.filterMap (RawFrame.shows key)) then occupiedDelta else 0 := by
  rw [occupancy_replay hacc (checkpoint_run _ frames),
    (follows_run hval hord fun frame _ => frame.inI64.2).2.2, sum_evidenceTrace,
    (isSparse_new hnew).1]
  exact zero_add _

def samplePolicy : VoxelPersistenceConfig := ⟨2, 3, 1, 1⟩

theorem samplePolicy_valid : samplePolicy.validate = true := by decide

theorem sampleUpdate_finite : ∀ placed ∈ placedDeltas (sampleUpdate (4 / 5) none).voxelChunks,
    placed.2.occupancyDelta.isFinite = true := by
  decide +kernel

theorem sample_inI64 (time : UInt8) : InI64 time.toNat := by
  have := time.toNat_lt
  have : i64Min ≤ 0 ∧ 255 ≤ i64Max := by decide
  constructor <;> omega

/-- Three hits in a row, newest first. -/
def sampleFrames : List RawFrame :=
  ([2, 1, 0] : List UInt8).map fun time =>
    ⟨time.toNat, sampleUpdate (4 / 5) none, sample_inI64 time, sampleUpdate_finite⟩

def sampleKey : VoxelKey := ⟨⟨-1, 0, 0⟩, ⟨1, 2, 3⟩⟩

theorem sampleFrames_ordered :
    sampleFrames.Pairwise fun later earlier => earlier.timestampNs ≤ later.timestampNs := by
  simp [sampleFrames]

theorem voxel_persistence_rule_sample :
    emittedFor sampleKey
        ((VoxelPersistenceFilter.new samplePolicy (4 / 5) samplePolicy_valid).run sampleFrames).2 =
      [[], [], [.finite (4 / 5)]] :=
  (voxel_persistence_rule samplePolicy (4 / 5) samplePolicy_valid sampleFrames sampleFrames_ordered
    sampleKey).trans (by decide +kernel)

theorem persistent_map_holds_confirmed_sample :
    (evidenceAt (sampleStart.replay ((VoxelPersistenceFilter.new samplePolicy (4 / 5)
        samplePolicy_valid).run sampleFrames).2).chunks sampleKey.chunk sampleKey.voxel).occupancy =
      4 / 5 :=
  (persistent_map_holds_confirmed new_sample samplePolicy (4 / 5) samplePolicy_valid sampleFrames
    sampleFrames_ordered (by unfold VoxelMapAccumulator.Accepts; decide +kernel) sampleKey).trans
    (by decide +kernel)

end AukiSdk.Mappers
