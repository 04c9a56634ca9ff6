import AukiSdk.Ros.PointCloud
import Mathlib.Tactic

/-!
# The normalized layout

The fields are packed one after another, and the payload repacks each point.
-/

namespace AukiSdk.Ros

open AukiSdk.Foundation AukiSdk.Registry List
open Framing (leValue)

variable {start count : ℕ}

@[simp]
theorem length_slice {data : List UInt8} (h : start + count ≤ data.length) :
    (slice data start count).length = count := by
  rw [slice, length_take, length_drop]
  omega

theorem slice_slice {data : List UInt8} {length offset : ℕ} (hins : offset + count ≤ length) :
    slice (slice data start length) offset count = slice data (start + offset) count := by
  rw [slice, slice, slice, drop_take, drop_drop, take_take, min_eq_left (by omega)]

theorem slice_append_left {front back : List UInt8} (hins : start + count ≤ front.length) :
    slice (front ++ back) start count = slice front start count := by
  rw [slice, slice, drop_append_of_le_length (by omega), take_append_of_le_length]
  rw [length_drop]
  omega

theorem slice_middle (front middle back : List UInt8) (hbeg : front.length = start) :
    slice (front ++ middle ++ back) start middle.length = middle := by
  rw [slice, append_assoc, ← hbeg, drop_left, take_left]

theorem slice_flatMap_range {length : ℕ} {block : ℕ → List UInt8} {point : ℕ}
    (hlen : ∀ index < count, (block index).length = length) (hpoint : point < count) :
    ((List.range count).flatMap block).length = count * length ∧
      slice ((List.range count).flatMap block) (point * length) length = block point := by
  induction count generalizing point with
  | zero => omega
  | succ count ih =>
    have hinit : ((List.range count).flatMap block).length = count * length := by
      rcases Nat.eq_zero_or_pos count with rfl | hpos
      · simp
      · exact (ih (fun index hidx => hlen index (by omega)) hpos).1
    have hlast := hlen count (by omega)
    rw [range_succ, flatMap_append, flatMap_singleton]
    refine ⟨?_, ?_⟩
    · rw [length_append, hinit, hlast, Nat.succ_mul]
    · rcases Nat.lt_succ_iff_lt_or_eq.mp hpoint with hpre | rfl
      · have hfit : point * length + length ≤ count * length := by
          rw [← Nat.succ_mul]
          exact Nat.mul_le_mul_right _ hpre
        rw [slice_append_left (by omega)]
        exact (ih (fun index hidx => hlen index (by omega)) hpre).2
      · have hwhl := slice_middle ((List.range point).flatMap block) (block point) [] hinit
        rw [append_nil, hlast] at hwhl
        exact hwhl

namespace PointFieldMsg

/-- The bytes of a field in the payload. -/
def packedSize (field : PointFieldMsg) : ℕ :=
  if field.isRgb then 3 else if field.isRgba then 4 else field.size

def entries (field : PointFieldMsg) (offset : ℕ) : List PointField :=
  if field.isRgb then colorChannels ["r", "g", "b"] offset
  else if field.isRgba then colorChannels ["r", "g", "b", "a"] offset
  else [⟨field.name, offset, field.sdkType, field.count.toNat⟩]

def plan (field : PointFieldMsg) (offset : ℕ) : NormalizationPlan :=
  if field.isRgb then .expandRgb field.offset.toNat offset
  else if field.isRgba then .expandRgba field.offset.toNat offset
  else .passThrough field.offset.toNat offset field.size

/-- What the plan of a field copies from a point's field at `start`. -/
def repack (field : PointFieldMsg) (source : List UInt8) (start : ℕ) : List UInt8 :=
  if field.isRgb then
    slice source (start + 2) 1 ++ slice source (start + 1) 1 ++ slice source start 1
  else if field.isRgba then
    slice source (start + 2) 1 ++ slice source (start + 1) 1 ++ slice source start 1 ++
      slice source (start + 3) 1
  else slice source start field.size

end PointFieldMsg

def layoutFrom (offset : ℕ) : List PointFieldMsg → List PointField
  | [] => []
  | field :: fields => field.entries offset ++ layoutFrom (offset + field.packedSize) fields

def plansFrom (offset : ℕ) : List PointFieldMsg → List NormalizationPlan
  | [] => []
  | field :: fields => field.plan offset :: plansFrom (offset + field.packedSize) fields

/-- The point step of the payload. -/
def packedStep (fields : List PointFieldMsg) : ℕ := (fields.map PointFieldMsg.packedSize).sum

theorem size_of_color {field : PointFieldMsg} (hcol : field.isRgb ∨ field.isRgba) :
    field.size = 4 := by
  have hsca : field.datatype = 7 ∧ field.count = 1 := by
    simp only [PointFieldMsg.isRgb, PointFieldMsg.isRgba, decide_eq_true_eq] at hcol
    rcases hcol with h | h <;> exact h.2
  rw [PointFieldMsg.size, PointFieldMsg.sdkType, hsca.1, hsca.2]
  rfl

section Normalization

variable {field : PointFieldMsg}

theorem u32_bind {α : Type} (value : ℕ) (next : ℕ → Option α) :
    (u32 value).bind next = if value < 2 ^ 32 then next value else none := by
  unfold u32
  split <;> rfl

theorem normalizeField_eq (done : Normalized) (hkno : (rosDatatypeToSdk field.datatype).isSome)
    (hsize : field.size < 2 ^ 32) :
    normalizeField done field =
      if done.pointStep + field.packedSize < 2 ^ 32 then
        some ⟨done.fields ++ field.entries done.pointStep, done.pointStep + field.packedSize,
          done.plans ++ [field.plan done.pointStep]⟩
      else none := by
  unfold normalizeField PointFieldMsg.packedSize PointFieldMsg.entries PointFieldMsg.plan
  by_cases hrgb : field.isRgb = true
  · simp only [hrgb, if_true, Option.bind_eq_bind, u32_bind]
    rfl
  · by_cases hrgba : field.isRgba = true
    · simp only [hrgb, hrgba, if_true, if_false, Bool.false_eq_true, Option.bind_eq_bind, u32_bind]
      rfl
    · obtain ⟨datatype, hdat⟩ := Option.isSome_iff_exists.mp hkno
      have htype : field.sdkType = datatype := by
        rw [PointFieldMsg.sdkType, hdat, Option.getD_some]
      rw [PointFieldMsg.size, htype] at hsize
      simp only [hrgb, hrgba, hdat, PointFieldMsg.size, htype, if_false, Bool.false_eq_true,
        Option.bind_eq_bind, Option.bind_some, u32_bind, if_pos hsize]
      rfl

theorem foldlM_normalizeField {fields : List PointFieldMsg} (done : Normalized)
    (hkno : ∀ field ∈ fields, (rosDatatypeToSdk field.datatype).isSome ∧ field.size < 2 ^ 32)
    (hdone : done.pointStep < 2 ^ 32) :
    fields.foldlM normalizeField done =
      if done.pointStep + packedStep fields < 2 ^ 32 then
        some ⟨done.fields ++ layoutFrom done.pointStep fields,
          done.pointStep + packedStep fields, done.plans ++ plansFrom done.pointStep fields⟩
      else none := by
  induction fields generalizing done with
  | nil =>
    have hemp : done.pointStep + packedStep [] < 2 ^ 32 := hdone
    rw [foldlM_nil, if_pos hemp]
    simp [packedStep, layoutFrom, plansFrom]
  | cons field fields ih =>
    rw [forall_mem_cons] at hkno
    have hs : packedStep (field :: fields) = field.packedSize + packedStep fields := rfl
    rw [foldlM_cons, normalizeField_eq done hkno.1.1 hkno.1.2, hs, ← Nat.add_assoc]
    by_cases hfits : done.pointStep + field.packedSize < 2 ^ 32
    · rw [if_pos hfits, Option.bind_eq_bind, Option.bind_some, ih _ hkno.2 hfits]
      simp only [layoutFrom, plansFrom, append_assoc, singleton_append]
    · rw [if_neg hfits, if_neg (by omega)]
      rfl

end Normalization

variable {done source rest : List UInt8}

theorem copySlice_end {position : ℕ} (hpos : position = done.length)
    (hrest : count ≤ rest.length) (hsrc : start + count ≤ source.length) :
    copySlice (done ++ rest) position source start count =
      some (done ++ slice source start count ++ rest.drop count) := by
  subst hpos
  have hroom : done.length + count ≤ (done ++ rest).length := by
    rw [length_append]
    omega
  rw [copySlice, if_pos ⟨hroom, hsrc⟩, take_left, ← drop_drop, drop_left]
  rfl

theorem applyPlan_end {field : PointFieldMsg} {srcBase dstBase offset : ℕ}
    (hpos : dstBase + offset = done.length) (hrest : field.packedSize ≤ rest.length)
    (hsrc : srcBase + field.offset.toNat + field.size ≤ source.length) :
    applyPlan source srcBase dstBase (done ++ rest) (field.plan offset) =
      some (done ++ field.repack source (srcBase + field.offset.toNat) ++
        rest.drop field.packedSize) := by
  unfold PointFieldMsg.plan PointFieldMsg.repack
  unfold PointFieldMsg.packedSize at hrest ⊢
  have hone {position start : ℕ} (h : start + 1 ≤ source.length) :
      (slice source start 1).length = 1 := length_slice h
  by_cases hrgb : field.isRgb = true
  · have hfour := size_of_color (Or.inl hrgb)
    simp only [hrgb, if_true] at hrest ⊢
    simp only [applyPlan, copyByte, Option.bind_eq_bind]
    rw [copySlice_end hpos (by omega) (by omega), Option.bind_some,
      copySlice_end (by rw [length_append, length_slice (by omega)]; omega)
        (by rw [length_drop]; omega) (by omega), Option.bind_some,
      copySlice_end (by
        rw [length_append, length_append, length_slice (by omega), length_slice (by omega)]
        omega) (by rw [length_drop, length_drop]; omega) (by omega)]
    simp only [append_assoc, drop_drop]
  · by_cases hrgba : field.isRgba = true
    · have hfour := size_of_color (Or.inr hrgba)
      simp only [hrgb, hrgba, if_true, if_false, Bool.false_eq_true] at hrest ⊢
      simp only [applyPlan, copyByte, Option.bind_eq_bind]
      rw [copySlice_end hpos (by omega) (by omega), Option.bind_some,
        copySlice_end (by rw [length_append, length_slice (by omega)]; omega)
          (by rw [length_drop]; omega) (by omega), Option.bind_some,
        copySlice_end (by
          rw [length_append, length_append, length_slice (by omega), length_slice (by omega)]
          omega) (by rw [length_drop, length_drop]; omega) (by omega),
        Option.bind_some,
        copySlice_end (by
          rw [length_append, length_append, length_append,
            length_slice (by omega), length_slice (by omega), length_slice (by omega)]
          omega) (by rw [length_drop, length_drop, length_drop]; omega)
          (by omega)]
      simp only [append_assoc, drop_drop]
    · simp only [hrgb, hrgba, if_false, Bool.false_eq_true] at hrest ⊢
      exact copySlice_end hpos hrest hsrc

theorem length_repack {field : PointFieldMsg} (hsrc : start + field.size ≤ source.length) :
    (field.repack source start).length = field.packedSize := by
  unfold PointFieldMsg.repack PointFieldMsg.packedSize
  by_cases hrgb : field.isRgb = true
  · have hfour := size_of_color (Or.inl hrgb)
    simp only [hrgb, if_true, length_append]
    rw [length_slice (by omega), length_slice (by omega), length_slice (by omega)]
  · by_cases hrgba : field.isRgba = true
    · have hfour := size_of_color (Or.inr hrgba)
      simp only [hrgb, hrgba, if_true, if_false, Bool.false_eq_true, length_append]
      rw [length_slice (by omega), length_slice (by omega), length_slice (by omega),
        length_slice (by omega)]
    · simp only [hrgb, hrgba, if_false, Bool.false_eq_true]
      exact length_slice hsrc

/-- The payload's bytes of the point at `base`. -/
def pointBytes (fields : List PointFieldMsg) (source : List UInt8) (base : ℕ) : List UInt8 :=
  fields.flatMap fun field => field.repack source (base + field.offset.toNat)

/-- Every field of the point at `base` is inside the source. -/
def Inside (fields : List PointFieldMsg) (source : List UInt8) (base : ℕ) : Prop :=
  ∀ field ∈ fields, base + field.offset.toNat + field.size ≤ source.length

variable {fields : List PointFieldMsg}

theorem length_pointBytes {base : ℕ} (hins : Inside fields source base) :
    (pointBytes fields source base).length = packedStep fields := by
  rw [pointBytes, length_flatMap, packedStep]
  exact congrArg List.sum (map_congr_left fun field hfld =>
    length_repack (hins field hfld))

theorem foldlM_applyPlan {srcBase dstBase offset : ℕ} (hpos : dstBase + offset = done.length)
    (hrest : packedStep fields ≤ rest.length) (hins : Inside fields source srcBase) :
    (plansFrom offset fields).foldlM (applyPlan source srcBase dstBase) (done ++ rest) =
      some (done ++ pointBytes fields source srcBase ++ rest.drop (packedStep fields)) := by
  induction fields generalizing done rest offset with
  | nil => simp [plansFrom, pointBytes, packedStep]
  | cons field fields ih =>
    have hs : packedStep (field :: fields) = field.packedSize + packedStep fields := rfl
    have hfld := hins field mem_cons_self
    rw [plansFrom, foldlM_cons, applyPlan_end hpos (by omega) hfld,
      Option.bind_eq_bind, Option.bind_some,
      ih (by rw [length_append, length_repack hfld]; omega)
        (by rw [length_drop]; omega)
        fun other ho => hins other (mem_cons_of_mem _ ho)]
    simp only [pointBytes, flatMap_cons, append_assoc, drop_drop, hs]

theorem applyNormalization_eq {pointStep : ℕ}
    (hins : ∀ point < count, Inside fields source (point * pointStep)) :
    applyNormalization (plansFrom 0 fields) source pointStep count (packedStep fields) =
      if count * packedStep fields < 2 ^ 63 then
        some ((List.range count).flatMap fun point => pointBytes fields source (point * pointStep))
      else none := by
  have hloop : ∀ total, total ≤ count → (List.range total).foldlM
        (fun out point => (plansFrom 0 fields).foldlM
          (applyPlan source (point * pointStep) (point * packedStep fields)) out)
        (List.replicate (count * packedStep fields) 0) =
      some ((List.range total).flatMap
          (fun point => pointBytes fields source (point * pointStep)) ++
        List.replicate ((count - total) * packedStep fields) 0) := by
    intro total
    induction total with
    | zero => simp
    | succ total ih =>
      intro htot
      have hwro : ((List.range total).flatMap
          fun point => pointBytes fields source (point * pointStep)).length =
            total * packedStep fields := by
        rw [length_flatMap, map_congr_left (g := fun _ => packedStep fields)]
        · simp
        · intro point hpoint
          exact length_pointBytes (hins point (by have := mem_range.mp hpoint; omega))
      have hleft : (count - total) * packedStep fields =
          packedStep fields + (count - (total + 1)) * packedStep fields := by
        rw [show count - total = count - (total + 1) + 1 by omega, Nat.succ_mul, Nat.add_comm]
      rw [range_succ, foldlM_append, ih (by omega), Option.bind_eq_bind,
        Option.bind_some, foldlM_cons,
        foldlM_applyPlan (by rw [hwro]; rfl) (by rw [length_replicate]; omega)
          (hins total (by omega)), Option.bind_eq_bind, Option.bind_some, foldlM_nil,
        drop_replicate, hleft, Nat.add_sub_cancel_left]
      simp
  unfold applyNormalization zeroed
  split
  · rw [Option.bind_eq_bind, Option.bind_some, hloop count le_rfl]
    simp
  · rfl

end AukiSdk.Ros
