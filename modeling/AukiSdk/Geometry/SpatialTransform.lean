import AukiSdk.Geometry.Frame

/-!
# Spatial transforms

A translation and an orientation quaternion; either may be missing.
-/

namespace AukiSdk.Geometry

open Matrix
open AukiSdk.Foundation

structure Vec3 where
  x : ℝ
  y : ℝ
  z : ℝ

structure Quat where
  x : ℝ
  y : ℝ
  z : ℝ
  w : ℝ

structure SpatialTransform where
  translation : Option Vec3
  orientation : Option Quat

noncomputable def epsilon : ℝ := 1.0e-12

noncomputable def Quat.norm (q : Quat) : ℝ :=
  √(q.x * q.x + q.y * q.y + q.z * q.z + q.w * q.w)

noncomputable def normalizeQuat (q : Quat) : Except GeometryError Quat :=
  let norm := q.norm
  if norm ≤ epsilon then .error .zeroQuaternion
  else .ok ⟨q.x / norm, q.y / norm, q.z / norm, q.w / norm⟩

def quatToMatrix (q : Quat) : Matrix3 :=
  let xx := q.x * q.x
  let yy := q.y * q.y
  let zz := q.z * q.z
  let xy := q.x * q.y
  let xz := q.x * q.z
  let yz := q.y * q.z
  let wx := q.w * q.x
  let wy := q.w * q.y
  let wz := q.w * q.z
  !![1 - 2 * (yy + zz), 2 * (xy - wz), 2 * (xz + wy);
    2 * (xy + wz), 1 - 2 * (xx + zz), 2 * (yz - wx);
    2 * (xz - wy), 2 * (yz + wx), 1 - 2 * (xx + yy)]

/-- The branches of `matrix_to_quat`, by the component taken from the square root. -/
inductive QuatBranch where
  | w | x | y | z
  deriving DecidableEq, Repr

noncomputable def quatBranch (m : Matrix3) : QuatBranch :=
  let trace := m 0 0 + m 1 1 + m 2 2
  if 0 < trace then .w
  else if m 1 1 < m 0 0 ∧ m 2 2 < m 0 0 then .x
  else if m 2 2 < m 1 1 then .y
  else .z

/-- The divisor `s` of the branch taken. -/
noncomputable def quatDivisor (m : Matrix3) : ℝ :=
  match quatBranch m with
  | .w => √((m 0 0 + m 1 1 + m 2 2) + 1) * 2
  | .x => √(1 + m 0 0 - m 1 1 - m 2 2) * 2
  | .y => √(1 + m 1 1 - m 0 0 - m 2 2) * 2
  | .z => √(1 + m 2 2 - m 0 0 - m 1 1) * 2

noncomputable def quatCandidate (m : Matrix3) : Quat :=
  let s := quatDivisor m
  match quatBranch m with
  | .w =>
    { w := 0.25 * s
      x := (m 2 1 - m 1 2) / s
      y := (m 0 2 - m 2 0) / s
      z := (m 1 0 - m 0 1) / s }
  | .x =>
    { w := (m 2 1 - m 1 2) / s
      x := 0.25 * s
      y := (m 0 1 + m 1 0) / s
      z := (m 0 2 + m 2 0) / s }
  | .y =>
    { w := (m 0 2 - m 2 0) / s
      x := (m 0 1 + m 1 0) / s
      y := 0.25 * s
      z := (m 1 2 + m 2 1) / s }
  | .z =>
    { w := (m 1 0 - m 0 1) / s
      x := (m 0 2 + m 2 0) / s
      y := (m 1 2 + m 2 1) / s
      z := 0.25 * s }

noncomputable def matrixToQuat (m : Matrix3) : Except GeometryError Quat :=
  normalizeQuat (quatCandidate m)

variable (m : Matrix3)

def applyMatrix3ToVec3 (v : Vec3) : Except GeometryError Vec3 :=
  .ok
    { x := m 0 0 * v.x + m 0 1 * v.y + m 0 2 * v.z
      y := m 1 0 * v.x + m 1 1 * v.y + m 1 2 * v.z
      z := m 2 0 * v.x + m 2 1 * v.y + m 2 2 * v.z }

def spatialTransformTranslation (transform : SpatialTransform) : Vec3 :=
  transform.translation.getD ⟨0, 0, 0⟩

noncomputable def spatialTransformRotation (transform : SpatialTransform) :
    Except GeometryError Matrix3 := do
  let orientation := transform.orientation.getD ⟨0, 0, 0, 1⟩
  return quatToMatrix (← normalizeQuat orientation)

def addVec3 (a b : Vec3) : Vec3 :=
  ⟨a.x + b.x, a.y + b.y, a.z + b.z⟩

def negateVec3 (v : Vec3) : Vec3 :=
  ⟨-v.x, -v.y, -v.z⟩

noncomputable def inverseSpatialTransform (transform : SpatialTransform) :
    Except GeometryError SpatialTransform := do
  let rotation ← spatialTransformRotation transform
  let inverseRotation := transpose3 rotation
  let translation := spatialTransformTranslation transform
  let inverseTranslation := negateVec3 (← applyMatrix3ToVec3 inverseRotation translation)
  return { translation := some inverseTranslation
           orientation := some (← matrixToQuat inverseRotation) }

/-- First `fromToMid`, then `midToTo`. -/
noncomputable def composeSpatialTransforms (fromToMid midToTo : SpatialTransform) :
    Except GeometryError SpatialTransform := do
  let firstRotation ← spatialTransformRotation fromToMid
  let secondRotation ← spatialTransformRotation midToTo
  let firstTranslation := spatialTransformTranslation fromToMid
  let secondTranslation := spatialTransformTranslation midToTo
  let rotation := mul3 secondRotation firstRotation
  let rotatedTranslation ← applyMatrix3ToVec3 secondRotation firstTranslation
  let translation := addVec3 rotatedTranslation secondTranslation
  return { translation := some translation
           orientation := some (← matrixToQuat rotation) }

noncomputable def relativeSpatialTransform (commonToFrom commonToTo : SpatialTransform) :
    Except GeometryError SpatialTransform := do
  let fromToCommon ← inverseSpatialTransform commonToFrom
  composeSpatialTransforms fromToCommon commonToTo

noncomputable def spatialTransformToMatrix4 (transform : SpatialTransform) :
    Except GeometryError Matrix4 := do
  let rotation ← spatialTransformRotation transform
  let translation := spatialTransformTranslation transform
  return !![rotation 0 0, rotation 0 1, rotation 0 2, translation.x;
    rotation 1 0, rotation 1 1, rotation 1 2, translation.y;
    rotation 2 0, rotation 2 1, rotation 2 2, translation.z;
    0, 0, 0, 1]

noncomputable def spatialTransformFromMatrix4 (matrix : Matrix4) :
    Except GeometryError SpatialTransform := do
  let rotation : Matrix3 :=
    !![matrix 0 0, matrix 0 1, matrix 0 2; matrix 1 0, matrix 1 1, matrix 1 2;
      matrix 2 0, matrix 2 1, matrix 2 2]
  let translation : Vec3 := ⟨matrix 0 3, matrix 1 3, matrix 2 3⟩
  let orientation ← matrixToQuat rotation
  return { translation := some translation
           orientation := some orientation }

/-- A conversion returns an error or panics in its `expect`. -/
inductive ConversionFault where
  | returned (error : GeometryError)
  | panicked (message : String)
  deriving DecidableEq, Repr

noncomputable def convertOrientationConvention (orientation : Quat)
    (source target : FrameRegistryEntry) : Except ConversionFault Quat := do
  let basis ← (axisConventionMatrix source.axes target.axes).mapError .returned
  let rotation := quatToMatrix (← (normalizeQuat orientation).mapError .returned)
  let converted := mul3 (mul3 basis rotation) (transpose3 basis)
  let quat ← (matrixToQuat converted).mapError .returned
  (normalizeQuat quat).mapError fun _ => .panicked "matrix_to_quat returns non-zero"

noncomputable def convertPointConvention (point : Vec3) (source target : FrameRegistryEntry) :
    Except GeometryError Vec3 := do
  applyMatrix3ToVec3 (← lengthScaledAxisMatrix source target) point

noncomputable def convertVectorConvention (vector : Vec3) (source target : FrameRegistryEntry) :
    Except GeometryError Vec3 :=
  convertPointConvention vector source target

noncomputable def convertPoseConvention (pose : SpatialTransform)
    (source target : FrameRegistryEntry) : Except ConversionFault SpatialTransform := do
  (validateFrame source).mapError .returned
  (validateFrame target).mapError .returned
  let translation ← pose.translation.mapM fun t =>
    (convertVectorConvention t source target).mapError ConversionFault.returned
  let orientation ← pose.orientation.mapM fun q =>
    convertOrientationConvention q source target
  return { translation, orientation }

noncomputable def axisOnlyTransform (source target : AxisConvention) :
    Except GeometryError SpatialTransform := do
  let quat ← matrixToQuat (← axisConventionMatrix source target)
  return { translation := some ⟨0, 0, 0⟩, orientation := some quat }

noncomputable def convertTransformSourceConvention (transform : SpatialTransform)
    (source target : FrameRegistryEntry) : Except GeometryError SpatialTransform := do
  validateFrame source
  validateFrame target
  rejectMixedHandedness source target
  rejectMixedUnits source target
  let newSourceToOldSource ← axisOnlyTransform target.axes source.axes
  composeSpatialTransforms newSourceToOldSource transform

noncomputable def convertTransformTargetConvention (transform : SpatialTransform)
    (source target : FrameRegistryEntry) : Except GeometryError SpatialTransform := do
  validateFrame source
  validateFrame target
  rejectMixedHandedness source target
  rejectMixedUnits source target
  let oldTargetToNewTarget ← axisOnlyTransform source.axes target.axes
  composeSpatialTransforms transform oldTargetToNewTarget

/-! ### Quaternions and rotation matrices -/

theorem normalizeQuat_eq {q : Quat} (hnorm : epsilon < q.norm) :
    normalizeQuat q = .ok ⟨q.x / q.norm, q.y / q.norm, q.z / q.norm, q.w / q.norm⟩ :=
  if_neg (not_le.mpr hnorm)

theorem epsilon_pos : 0 < epsilon := by
  norm_num [epsilon]

theorem epsilon_lt_one : epsilon < 1 := by
  norm_num [epsilon]

theorem normalizeQuat_of_unit {q : Quat} (hunit : q.norm = 1) : normalizeQuat q = .ok q := by
  rw [normalizeQuat_eq (by rw [hunit]; exact epsilon_lt_one), hunit]
  simp only [div_one]

theorem norm_sq (q : Quat) : q.norm * q.norm = q.x * q.x + q.y * q.y + q.z * q.z + q.w * q.w := by
  refine Real.mul_self_sqrt ?_
  linarith [mul_self_nonneg q.x, mul_self_nonneg q.y, mul_self_nonneg q.z, mul_self_nonneg q.w]

theorem quatToMatrix_normalized {q : Quat} (hnorm : epsilon < q.norm) :
    quatToMatrix ⟨q.x / q.norm, q.y / q.norm, q.z / q.norm, q.w / q.norm⟩ ∈
      specialOrthogonalGroup (Fin 3) ℝ := by
  have hne : q.norm ≠ 0 := (epsilon_pos.trans hnorm).ne'
  refine Rotation.quaternionMatrix_mem ?_
  calc
    q.x / q.norm * (q.x / q.norm) + q.y / q.norm * (q.y / q.norm) +
          q.z / q.norm * (q.z / q.norm) + q.w / q.norm * (q.w / q.norm)
        = (q.x * q.x + q.y * q.y + q.z * q.z + q.w * q.w) / (q.norm * q.norm) := by
      simp only [div_mul_div_comm, ← add_div]
    _ = 1 := by
      rw [← norm_sq]
      exact div_self (mul_ne_zero hne hne)

/-- The row of products that a branch reads. -/
def QuatBranch.row : QuatBranch → Fin 4
  | .w => 0
  | .x => 1
  | .y => 2
  | .z => 3

theorem pivot_pos : 0 < Rotation.products m (quatBranch m).row (quatBranch m).row := by
  unfold quatBranch
  dsimp only
  split_ifs <;> simp only [QuatBranch.row, Rotation.products, of_apply, cons_val]
  case pos htr => linarith
  case pos htr hlar => linarith [hlar.1, hlar.2]
  case pos htr hx hy =>
    rcases not_and_or.mp hx with hx | hx <;> linarith
  case neg htr hx hy =>
    rcases not_and_or.mp hx with hx | hx <;> linarith

theorem quatDivisor_eq :
    quatDivisor m = √(Rotation.products m (quatBranch m).row (quatBranch m).row) * 2 := by
  unfold quatDivisor
  cases quatBranch m <;> simp only [QuatBranch.row, Rotation.products, of_apply, cons_val]
  ring_nf

theorem quatDivisor_sq : quatDivisor m * quatDivisor m =
      4 * Rotation.products m (quatBranch m).row (quatBranch m).row := by
  have hsqrt := Real.mul_self_sqrt (pivot_pos m).le
  rw [quatDivisor_eq]
  linear_combination 4 * hsqrt

theorem quatDivisor_ne_zero : quatDivisor m ≠ 0 := by
  rw [quatDivisor_eq]
  exact mul_ne_zero (Real.sqrt_pos.mpr (pivot_pos m)).ne' two_ne_zero

theorem quatCandidate_eq : quatCandidate m =
      { x := Rotation.products m (quatBranch m).row 1 / quatDivisor m
        y := Rotation.products m (quatBranch m).row 2 / quatDivisor m
        z := Rotation.products m (quatBranch m).row 3 / quatDivisor m
        w := Rotation.products m (quatBranch m).row 0 / quatDivisor m } := by
  have hpiv : 0.25 * quatDivisor m =
      Rotation.products m (quatBranch m).row (quatBranch m).row / quatDivisor m := by
    rw [eq_div_iff (quatDivisor_ne_zero m)]
    linear_combination 0.25 * quatDivisor_sq m
  unfold quatCandidate
  cases hbra : quatBranch m <;> rw [hbra] at hpiv <;>
    simp only [hpiv, QuatBranch.row] <;> rfl

theorem norm_quatCandidate {m : Matrix3} (hrot : m ∈ specialOrthogonalGroup (Fin 3) ℝ) :
    (quatCandidate m).norm = 1 := by
  rw [quatCandidate_eq, Quat.norm,
    Rotation.norm_row hrot (quatDivisor_sq m) (quatDivisor_ne_zero m), Real.sqrt_one]

theorem quatToMatrix_quatCandidate {m : Matrix3}
    (hrot : m ∈ specialOrthogonalGroup (Fin 3) ℝ) : quatToMatrix (quatCandidate m) = m := by
  rw [quatCandidate_eq]
  exact Rotation.quaternionMatrix_row hrot (quatDivisor_sq m) (quatDivisor_ne_zero m)

theorem matrixToQuat_eq {m : Matrix3} (hrot : m ∈ specialOrthogonalGroup (Fin 3) ℝ) :
    matrixToQuat m = .ok (quatCandidate m) :=
  normalizeQuat_of_unit (norm_quatCandidate hrot)

end AukiSdk.Geometry
