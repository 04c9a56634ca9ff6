import AukiSdk.Maps.Accumulator
import Mathlib.Algebra.Order.Floor.Ring
import Mathlib.Data.Rat.Floor

/-!
# Addresses of voxels

A grid index is split into a chunk and a place in the chunk.
-/

namespace AukiSdk.Mappers

open AukiSdk.Foundation AukiSdk.Maps List
open Std (ExtTreeMap)

/-- The errors of binning. -/
inductive VoxelizerError where
  | invalidGrid
  | nonFinitePoint
  | nonFiniteEvidence
  | invalidColor
  | coordinateOutOfRange
  deriving DecidableEq

structure Vec3 where
  x : Number
  y : Number
  z : Number

structure WeightedPoint where
  point : Vec3
  occupancyDelta : Number
  linearRgb : Option (Number × Number × Number)

structure Voxelizer where
  voxelSizeM : ℚ
  chunkDimension : UInt32
  size_pos : 0 < voxelSizeM
  dimension_ne : chunkDimension ≠ 0

def Voxelizer.new (voxelSizeM : Number) (chunkDimension : UInt32) :
    Except VoxelizerError Voxelizer :=
  match voxelSizeM with
  | .nonFinite => .error .invalidGrid
  | .finite size =>
    if hgrid : 0 < size ∧ chunkDimension ≠ 0 then .ok ⟨size, chunkDimension, hgrid.1, hgrid.2⟩
    else .error .invalidGrid

def i32Min : ℤ := -2 ^ 31

def i32Max : ℤ := 2 ^ 31 - 1

variable (dimension : UInt32)

/-- `as i32`. -/
def asI32 : ℤ := dimension.toBitVec.toInt

structure GridIndex where
  x : ℤ
  y : ℤ
  z : ℤ
  deriving DecidableEq

/-- Why `map_weighted_points` returns no update. -/
inductive Stop where
  | refused (error : VoxelizerError)
  /-- `div_euclid` overflowed. -/
  | panicked
  deriving DecidableEq

/-- `div_euclid` and `rem_euclid`. -/
def splitAxis (d index : ℤ) : Option (ℤ × ℕ) :=
  if d = 0 ∨ index = i32Min ∧ d = -1 then none else some (index / d, (index % d).toNat)

def validChannel : Number → Bool
  | .finite channel => 0 ≤ channel ∧ channel ≤ 1
  | .nonFinite => false

namespace Voxelizer

variable (divide : ℚ → ℚ → Number) (voxelizer : Voxelizer)

/-- The quotient is the one of `f64`, whose floor is exact. -/
def gridIndex (coordinateM : Number) : Except VoxelizerError ℤ :=
  match divide coordinateM.value voxelizer.voxelSizeM with
  | .nonFinite => .error .coordinateOutOfRange
  | .finite quotient =>
    if ⌊quotient⌋ < i32Min ∨ i32Max < ⌊quotient⌋ then .error .coordinateOutOfRange
    else .ok ⌊quotient⌋

/-- The checks of a point, and its grid indices. -/
def gridIndices (weighted : WeightedPoint) : Except VoxelizerError GridIndex := do
  let point := weighted.point
  Checks.require (point.x.isFinite ∧ point.y.isFinite ∧ point.z.isFinite) .nonFinitePoint
  Checks.require (weighted.occupancyDelta.isFinite = true) .nonFiniteEvidence
  Checks.require (∀ color ∈ weighted.linearRgb,
    validChannel color.1 ∧ validChannel color.2.1 ∧ validChannel color.2.2) .invalidColor
  return ⟨← voxelizer.gridIndex divide point.x, ← voxelizer.gridIndex divide point.y,
    ← voxelizer.gridIndex divide point.z⟩

/-- The chunk of a point, and the delta that is pushed there. -/
def placePoint (weighted : WeightedPoint) : Except Stop (ChunkCoord × VoxelDelta) := do
  let index ← (voxelizer.gridIndices divide weighted).mapError .refused
  let d := asI32 voxelizer.chunkDimension
  match splitAxis d index.x, splitAxis d index.y, splitAxis d index.z with
  | some (cx, lx), some (cy, ly), some (cz, lz) =>
    return (⟨cx, cy, cz⟩, {
      x := lx
      y := ly
      z := lz
      occupancyDelta := weighted.occupancyDelta
      semantics := []
      color := weighted.linearRgb.map fun color => ⟨color.1, color.2.1, color.2.2, .finite 1⟩ })
  | _, _, _ => throw .panicked

/-- The loop over the points. -/
def placePoints : ExtTreeMap ChunkCoord (List VoxelDelta) → List WeightedPoint →
    Except Stop (ExtTreeMap ChunkCoord (List VoxelDelta))
  | chunks, [] => .ok chunks
  | chunks, weighted :: rest => do
    let (chunk, delta) ← voxelizer.placePoint divide weighted
    placePoints (SparseMap.store [] (· ++ [delta]) chunk chunks) rest

def mapWeightedPoints (points : List WeightedPoint) : Except Stop MapUpdate := do
  let chunks ← voxelizer.placePoints divide ∅ points
  return {
    voxelChunks := chunks.toList.map fun entry => ⟨entry.1.x, entry.1.y, entry.1.z, entry.2⟩
    checkpoint := none }

end Voxelizer

/-- The coordinate is in the chunk, and they make up the grid index. -/
structure AxisExact (dimension : UInt32) (index chunk : ℤ) (coord : ℕ) : Prop where
  lt : coord < dimension.toNat
  eq : chunk * dimension.toNat + coord = index

/-- The dimension is an `i32`, or the index is in the chunk of zero of the wrapped dimension. -/
def AxisFits (index : ℤ) : Prop :=
  dimension.toNat < 2 ^ 31 ∨ 0 ≤ index ∧ index + dimension.toNat < 2 ^ 32

theorem asI32_eq : asI32 dimension =
    if dimension.toNat < 2 ^ 31 then (dimension.toNat : ℤ) else dimension.toNat - 2 ^ 32 := by
  rw [asI32, BitVec.toInt_eq_toNat_cond]
  have hnat : dimension.toBitVec.toNat = dimension.toNat := rfl
  rw [hnat]
  split <;> split <;> omega

theorem splitAxis_exact_iff {dimension : UInt32} (hne : dimension ≠ 0) (index : ℤ) :
    (∃ chunk coord, splitAxis (asI32 dimension) index = some (chunk, coord) ∧
      AxisExact dimension index chunk coord) ↔ AxisFits dimension index := by
  have hpos : 0 < dimension.toNat := Nat.pos_of_ne_zero fun hzero => hne (UInt32.toNat_inj.mp hzero)
  have hbnd : dimension.toNat < 2 ^ 32 := dimension.toNat_lt
  have hd := asI32_eq dimension
  by_cases hsma : dimension.toNat < 2 ^ 31
  · rw [if_pos hsma] at hd
    refine iff_of_true ⟨index / dimension.toNat, (index % dimension.toNat).toNat, ?_, ?_, ?_⟩
      (.inl hsma)
    · rw [hd, splitAxis, if_neg (by omega)]
    · have := Int.emod_lt_of_pos index (by omega : (0 : ℤ) < dimension.toNat)
      have := Int.emod_nonneg index (by omega : (dimension.toNat : ℤ) ≠ 0)
      omega
    · rw [Int.toNat_of_nonneg (Int.emod_nonneg index (by omega)), Int.ediv_mul_add_emod]
  · rw [if_neg hsma] at hd
    have habs : |asI32 dimension| = 2 ^ 32 - dimension.toNat := by
      rw [hd, abs_of_neg (by omega)]
      omega
    constructor
    · rintro ⟨chunk, coord, hsp, -, heq⟩
      rw [splitAxis] at hsp
      split at hsp
      · cases hsp
      obtain ⟨rfl, rfl⟩ := Prod.mk.inj (Option.some.inj hsp)
      have hne : asI32 dimension ≠ 0 := by omega
      have hnn := Int.emod_nonneg index hne
      have hlt := Int.emod_lt_abs index hne
      have hsum := Int.ediv_mul_add_emod index (asI32 dimension)
      rw [Int.toNat_of_nonneg hnn] at heq
      -- both decompositions have the same remainder, so the chunk is zero
      have hzero : index / asI32 dimension * 2 ^ 32 = 0 := by
        rw [hd] at heq hsum ⊢
        linarith
      have hchk : index / asI32 dimension = 0 := by omega
      rw [hchk] at hsum
      right
      omega
    · rintro (hfits | ⟨hnn, hlt⟩)
      · exact absurd hfits hsma
      have hdiv : index / asI32 dimension = 0 := by
        refine Int.ediv_eq_zero_of_lt_abs hnn ?_
        omega
      have hmod : index % asI32 dimension = index := by
        have hsum := Int.ediv_mul_add_emod index (asI32 dimension)
        rwa [hdiv, zero_mul, zero_add] at hsum
      refine ⟨0, index.toNat, ?_, by omega, by omega⟩
      rw [splitAxis, if_neg (by rw [i32Min]; omega), hdiv, hmod]

theorem AxisExact.index_inj {dimension : UInt32} {index chunk index' chunk' : ℤ} {coord coord' : ℕ}
    (hexa : AxisExact dimension index chunk coord)
    (hexact' : AxisExact dimension index' chunk' coord') :
    index = index' ↔ chunk = chunk' ∧ coord = coord' := by
  constructor
  · intro heq
    have hpos : (0 : ℤ) < dimension.toNat := by have := hexa.lt; omega
    have hchk : ∀ {index chunk : ℤ} {coord : ℕ}, AxisExact dimension index chunk coord →
        chunk = index / dimension.toNat := by
      intro index chunk coord hexa
      rw [← hexa.eq, add_comm, Int.add_mul_ediv_right _ _ hpos.ne',
        Int.ediv_eq_zero_of_lt (by omega) (by have := hexa.lt; omega), zero_add]
    obtain rfl : chunk = chunk' := by rw [hchk hexa, hchk hexact', heq]
    refine ⟨rfl, ?_⟩
    have := hexa.eq
    have := hexact'.eq
    omega
  · rintro ⟨rfl, rfl⟩
    exact hexa.eq.symm.trans hexact'.eq

section Points

variable {divide : ℚ → ℚ → Number} {voxelizer : Voxelizer}

/-- The place of a delta is exact on each axis. -/
structure PlacedExactly (dimension : UInt32) (index : GridIndex)
    (placed : ChunkCoord × VoxelDelta) : Prop where
  x : AxisExact dimension index.x placed.1.x placed.2.x
  y : AxisExact dimension index.y placed.1.y placed.2.y
  z : AxisExact dimension index.z placed.1.z placed.2.z

/-- The three axes fit. -/
def GridIndex.Fits (dimension : UInt32) (index : GridIndex) : Prop :=
  AxisFits dimension index.x ∧ AxisFits dimension index.y ∧ AxisFits dimension index.z

theorem placePoint_exact_iff {weighted : WeightedPoint} {index : GridIndex}
    (hind : voxelizer.gridIndices divide weighted = .ok index) :
    (∃ placed, voxelizer.placePoint divide weighted = .ok placed ∧
      PlacedExactly voxelizer.chunkDimension index placed) ↔
        index.Fits voxelizer.chunkDimension := by
  have haxis := splitAxis_exact_iff voxelizer.dimension_ne
  rw [Voxelizer.placePoint, hind, GridIndex.Fits, ← haxis, ← haxis, ← haxis]
  constructor
  · rintro ⟨placed, hpla, hexa⟩
    simp only [Except.mapError, bind, Except.bind] at hpla
    split at hpla
    case h_1 cx lx cy ly cz lz hx hy hz =>
      cases hpla
      exact ⟨⟨cx, lx, hx, hexa.x⟩, ⟨cy, ly, hy, hexa.y⟩, cz, lz, hz, hexa.z⟩
    case h_2 => cases hpla
  · rintro ⟨⟨cx, lx, hx, hexc⟩, ⟨cy, ly, hy, hexy⟩, cz, lz, hz, hexz⟩
    simp only [Except.mapError, bind, Except.bind, hx, hy, hz]
    exact ⟨_, rfl, hexc, hexy, hexz⟩

theorem PlacedExactly.index_inj {dimension : UInt32} {index index' : GridIndex}
    {placed placed' : ChunkCoord × VoxelDelta} (hexa : PlacedExactly dimension index placed)
    (hexact' : PlacedExactly dimension index' placed') :
    index = index' ↔ placed.1 = placed'.1 ∧ placed.2.coord = placed'.2.coord := by
  have hx := hexa.x.index_inj hexact'.x
  have hy := hexa.y.index_inj hexact'.y
  have hz := hexa.z.index_inj hexact'.z
  obtain ⟨⟨cx, cy, cz⟩, delta⟩ := placed
  obtain ⟨⟨cx', cy', cz'⟩, delta'⟩ := placed'
  cases index
  cases index'
  simp only [GridIndex.mk.injEq, ChunkCoord.mk.injEq, VoxelDelta.coord,
    LocalVoxelCoord.mk.injEq] at hx hy hz ⊢
  rw [hx, hy, hz]
  tauto

/-- What is pushed to a chunk, in order. -/
def pushedTo (placed : List (ChunkCoord × VoxelDelta)) (chunk : ChunkCoord) : List VoxelDelta :=
  placed.filterMap fun entry => if entry.1 = chunk then some entry.2 else none

theorem placePoints_eq {points : List WeightedPoint} {placed : List (ChunkCoord × VoxelDelta)}
    (hpla : List.Forall₂ (fun point entry => voxelizer.placePoint divide point = .ok entry)
      points placed) :
    ∀ chunks, SparseMap.Pruned [] chunks →
      ∃ after, voxelizer.placePoints divide chunks points = .ok after ∧ SparseMap.Pruned [] after ∧
        ∀ chunk, SparseMap.valueAt [] after chunk =
          SparseMap.valueAt [] chunks chunk ++ pushedTo placed chunk := by
  induction hpla with
  | nil =>
    intro chunks hpru
    exact ⟨chunks, rfl, hpru, fun chunk => (append_nil _).symm⟩
  | @cons point entry points placed hpoint _ ih =>
    intro chunks hpru
    have hpruned' : SparseMap.Pruned [] (SparseMap.store [] (· ++ [entry.2]) entry.1 chunks) := by
      intro key hnil
      by_cases heq : key = entry.1
      · rw [heq, SparseMap.store, ExtTreeMap.getElem?_alter_self] at hnil
        simp at hnil
      · rw [SparseMap.store, SparseMap.getElem?_alter_of_ne heq] at hnil
        exact hpru key hnil
    obtain ⟨after, haft, hprn, hval⟩ := ih _ hpruned'
    refine ⟨after, by rw [Voxelizer.placePoints, hpoint]; exact haft, hprn, ?_⟩
    intro chunk
    rw [hval, pushedTo, pushedTo, filterMap_cons]
    by_cases heq : entry.1 = chunk
    · rw [if_pos heq, ← heq, SparseMap.valueAt_store_self, append_assoc]
      rfl
    · rw [if_neg heq, SparseMap.valueAt_store_of_ne (Ne.symm heq)]

theorem length_pushedTo (placed : List (ChunkCoord × VoxelDelta)) (chunk : ChunkCoord) :
    (pushedTo placed chunk).length = (placed.map Prod.fst).count chunk := by
  induction placed with
  | nil => rfl
  | cons entry placed ih =>
    rw [pushedTo, filterMap_cons, map_cons, count_cons, ← ih]
    by_cases heq : entry.1 = chunk
    · rw [if_pos heq, if_pos (beq_iff_eq.mpr heq)]
      rfl
    · rw [if_neg heq, if_neg fun hbeq => heq (beq_iff_eq.mp hbeq)]
      rfl

/-- The update has each chunk once, in order, and nothing is lost. -/
structure Grouped (placed : List (ChunkCoord × VoxelDelta)) (update : MapUpdate) : Prop where
  increasing : update.voxelChunks.Pairwise fun earlier later =>
    compare earlier.coord later.coord = .lt
  voxels : ∀ chunk ∈ update.voxelChunks, chunk.voxels = pushedTo placed chunk.coord
  total : (update.voxelChunks.map fun chunk => chunk.voxels.length).sum = placed.length

theorem mapWeightedPoints_grouped {points : List WeightedPoint}
    {placed : List (ChunkCoord × VoxelDelta)}
    (hpla : List.Forall₂ (fun point entry => voxelizer.placePoint divide point = .ok entry)
      points placed) :
    ∃ update, voxelizer.mapWeightedPoints divide points = .ok update ∧ Grouped placed update := by
  obtain ⟨chunks, hchu, hpru, hval⟩ := placePoints_eq hpla ∅ SparseMap.pruned_empty
  have hst : ∀ chunk, chunks[chunk]? =
      if pushedTo placed chunk = [] then none else some (pushedTo placed chunk) := by
    intro chunk
    rw [hpru.getElem?_eq, hval, SparseMap.valueAt_empty, nil_append]
  have hent : ∀ entry ∈ chunks.toList, entry.2 = pushedTo placed entry.1 := by
    intro entry hm
    have hf := ExtTreeMap.mem_toList_iff_getElem?_eq_some.mp hm
    rw [hst] at hf
    split at hf
    · cases hf
    · exact (Option.some.inj hf).symm
  refine ⟨_, by rw [Voxelizer.mapWeightedPoints, hchu]; rfl, ?_, ?_, ?_⟩
  · rw [pairwise_map]
    exact ExtTreeMap.ordered_keys_toList
  · intro chunk hm
    obtain ⟨entry, henm, rfl⟩ := mem_map.mp hm
    exact hent entry henm
  · have hkeys : (chunks.toList.map Prod.fst).Perm (placed.map Prod.fst).dedup := by
      refine (perm_ext_iff_of_nodup (FiniteMap.nodup_map_fst_toList chunks)
        (nodup_dedup _)).mpr fun chunk => ?_
      have hpus : chunk ∈ placed.map Prod.fst ↔ pushedTo placed chunk ≠ [] := by
        rw [← length_pos_iff, length_pushedTo, count_pos_iff]
      rw [mem_dedup, hpus]
      constructor
      · intro hm
        obtain ⟨entry, henm, rfl⟩ := mem_map.mp hm
        intro hnil
        have hf := ExtTreeMap.mem_toList_iff_getElem?_eq_some.mp henm
        rw [hst, if_pos hnil] at hf
        cases hf
      · intro hne
        have hf := (hst chunk).trans (if_neg hne)
        exact mem_map.mpr ⟨_, ExtTreeMap.mem_toList_iff_getElem?_eq_some.mpr hf, rfl⟩
    calc ((chunks.toList.map _).map fun chunk : VoxelChunkUpdate => chunk.voxels.length).sum
        = ((chunks.toList.map Prod.fst).map fun chunk => (placed.map Prod.fst).count chunk).sum := by
          rw [map_map, map_map]
          refine congrArg List.sum (map_congr_left fun entry hm => ?_)
          rw [Function.comp_apply, Function.comp_apply, ← length_pushedTo, hent entry hm]
      _ = ((placed.map Prod.fst).dedup.map fun chunk => (placed.map Prod.fst).count chunk).sum :=
          (hkeys.map _).sum_eq
      _ = placed.length := by
          rw [sum_map_count_dedup_eq_length, length_map]

theorem placed_iff {points : List WeightedPoint} {indices : List GridIndex}
    (hins : List.Forall₂ (fun point index => voxelizer.gridIndices divide point = .ok index)
      points indices) :
    (∃ placed, List.Forall₂ (fun point entry => voxelizer.placePoint divide point = .ok entry)
        points placed ∧
      List.Forall₂ (PlacedExactly voxelizer.chunkDimension) indices placed) ↔
        ∀ index ∈ indices, index.Fits voxelizer.chunkDimension := by
  induction hins with
  | nil => exact iff_of_true ⟨[], .nil, .nil⟩ fun index hm => by cases hm
  | @cons point index points indices hind _ ih =>
    rw [forall_mem_cons, ← ih, ← placePoint_exact_iff hind]
    constructor
    · rintro ⟨placed, hpla, hexa⟩
      cases hpla with
      | @cons _ entry _ rest hent hrest =>
        cases hexa with
        | cons hfst hots => exact ⟨⟨entry, hent, hfst⟩, rest, hrest, hots⟩
    · rintro ⟨⟨entry, hent, hfst⟩, rest, hrest, hots⟩
      exact ⟨entry :: rest, .cons hent hrest, .cons hfst hots⟩

/-- Points are placed exactly and apart, and the update groups their deltas. -/
def AddressesExactly (divide : ℚ → ℚ → Number) (voxelizer : Voxelizer)
    (points : List WeightedPoint) (indices : List GridIndex) : Prop :=
  ∃ update placed, voxelizer.mapWeightedPoints divide points = .ok update ∧
    List.Forall₂ (fun point entry => voxelizer.placePoint divide point = .ok entry) points placed ∧
    List.Forall₂ (PlacedExactly voxelizer.chunkDimension) indices placed ∧
    (∀ one ∈ indices.zip placed, ∀ two ∈ indices.zip placed,
      one.1 = two.1 ↔ one.2.1 = two.2.1 ∧ one.2.2.coord = two.2.2.coord) ∧
    Grouped placed update ∧ placed.length = points.length

/-- Points are addressed exactly if the dimension is an `i32` or their indices are small. -/
theorem addresses_exactly_iff {points : List WeightedPoint} {indices : List GridIndex}
    (hindices : List.Forall₂ (fun point index => voxelizer.gridIndices divide point = .ok index)
      points indices) :
    AddressesExactly divide voxelizer points indices ↔
      ∀ index ∈ indices, index.Fits voxelizer.chunkDimension := by
  rw [← placed_iff hindices]
  constructor
  · rintro ⟨update, placed, -, hplaced, hexact, -⟩
    exact ⟨placed, hplaced, hexact⟩
  · rintro ⟨placed, hplaced, hexact⟩
    obtain ⟨update, hupdate, hgrouped⟩ := mapWeightedPoints_grouped hplaced
    refine ⟨update, placed, hupdate, hplaced, hexact, ?_, hgrouped, hplaced.length_eq.symm⟩
    intro one hone two htwo
    obtain ⟨-, hzip⟩ := forall₂_iff_zip.mp hexact
    exact (hzip hone).index_inj (hzip htwo)

/-- A grid of cells of one metre. -/
def unitVoxelizer (chunkDimension : UInt32) (hne : chunkDimension ≠ 0) : Voxelizer :=
  ⟨1, chunkDimension, one_pos, hne⟩

def pointAt (x y z : ℚ) : WeightedPoint := ⟨⟨.finite x, .finite y, .finite z⟩, .finite 1, none⟩

/-- Division without rounding. -/
def exactQuotient (dividend divisor : ℚ) : Number := .finite (dividend / divisor)

theorem addresses_exactly_iff_negative :
    AddressesExactly exactQuotient (unitVoxelizer 64 (by decide)) [pointAt (-1) 0 64]
        [⟨-1, 0, 64⟩] ↔
      ∀ index ∈ [(⟨-1, 0, 64⟩ : GridIndex)], index.Fits 64 :=
  addresses_exactly_iff (.cons (by decide +kernel) .nil)

/-- The largest dimension is read as `-1`. -/
theorem largest_dimension_inexact :
    ¬ AddressesExactly exactQuotient (unitVoxelizer 4294967295 (by decide)) [pointAt 1 0 0]
      [⟨1, 0, 0⟩] := by
  rintro ⟨update, placed, -, hplaced, hexact, -⟩
  cases hplaced with
  | @cons _ entry _ _ hentry hrest =>
    cases hrest
    cases hexact with
    | cons hfirst _ =>
      have hplace : (unitVoxelizer 4294967295 (by decide)).placePoint exactQuotient
          (pointAt 1 0 0) = .ok (⟨-1, 0, 0⟩, ⟨0, 0, 0, .finite 1, [], none⟩) := by
        decide +kernel
      cases hentry.symm.trans hplace
      exact absurd hfirst.x.eq (by decide)

end Points

end AukiSdk.Mappers
