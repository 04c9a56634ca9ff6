import AukiSdk.Foundation.Rotation

/-!
# Frame conventions

A frame declares what each of its axes points toward, its handedness and its length unit.
-/

namespace AukiSdk.Geometry

open Matrix
open AukiSdk.Foundation

scoped instance neZeroThree : NeZero 3 := inferInstance

scoped instance atLeastTwo : Nat.AtLeastTwo 2 := inferInstance

abbrev Matrix3 := Matrix (Fin 3) (Fin 3) ℝ
abbrev Matrix4 := Matrix (Fin 4) (Fin 4) ℝ

inductive Handedness where
  | right | left
  deriving DecidableEq, Repr

inductive AxisDirection where
  | forward | backward | up | down | left | right
  deriving DecidableEq, Repr

inductive LengthUnit where
  | meters | millimeters | centimeters
  deriving DecidableEq, Repr

/-- What each axis of a frame points toward. -/
structure AxisConvention where
  x : AxisDirection
  y : AxisDirection
  z : AxisDirection
  deriving DecidableEq, Repr

structure FrameRegistryEntry where
  peerId : String
  frameId : String
  handedness : Handedness
  axes : AxisConvention
  units : LengthUnit
  deriving DecidableEq, Repr

inductive GeometryError where
  | invalidAxes (message : String)
  | handednessMismatch (frameId : String) (declared : Handedness) (axesDeterminant : ℤ)
  | zeroQuaternion
  | mixedHandednessConversion (fromFrameId toFrameId : String)
  | mixedUnitConversion (fromFrameId toFrameId : String)
  deriving DecidableEq, Repr

/-- Two directions share a pair when they are parallel. -/
def AxisDirection.axisPair : AxisDirection → ℕ
  | .forward | .backward => 0
  | .left | .right => 1
  | .up | .down => 2

def AxisDirection.debug : AxisDirection → String
  | .forward => "Forward"
  | .backward => "Backward"
  | .up => "Up"
  | .down => "Down"
  | .left => "Left"
  | .right => "Right"

/-- The text of the registry's error when two axes share a pair. -/
def orthogonalAxesMessage (axes : AxisConvention) : String :=
  "invalid axes: axes must be orthogonal (drawn from three distinct axis-pairs); got x=" ++
    axes.x.debug ++ " y=" ++ axes.y.debug ++ " z=" ++ axes.z.debug

def FrameRegistryEntry.validate (entry : FrameRegistryEntry) : Except String Unit :=
  let xp := entry.axes.x.axisPair
  let yp := entry.axes.y.axisPair
  let zp := entry.axes.z.axisPair
  if xp = yp ∨ yp = zp ∨ xp = zp then .error (orthogonalAxesMessage entry.axes) else .ok ()

/-- The multiplier from a length in the unit to meters. -/
noncomputable def metersPerUnit : LengthUnit → ℝ
  | .meters => 1
  | .centimeters => 0.01
  | .millimeters => 0.001

noncomputable def directionVector : AxisDirection → Fin 3 → ℝ
  | .right => ![1, 0, 0]
  | .left => ![-1, 0, 0]
  | .up => ![0, 1, 0]
  | .down => ![0, -1, 0]
  | .backward => ![0, 0, 1]
  | .forward => ![0, 0, -1]

noncomputable def basisMatrix (axes : AxisConvention) : Matrix3 :=
  let x := directionVector axes.x
  let y := directionVector axes.y
  let z := directionVector axes.z
  !![x 0, y 0, z 0; x 1, y 1, z 1; x 2, y 2, z 2]

/-- The sign of the determinant. -/
noncomputable def determinant3 (m : Matrix3) : ℤ :=
  let det := m 0 0 * (m 1 1 * m 2 2 - m 1 2 * m 2 1) -
    m 0 1 * (m 1 0 * m 2 2 - m 1 2 * m 2 0) + m 0 2 * (m 1 0 * m 2 1 - m 1 1 * m 2 0)
  if 0 < det then 1 else if det < 0 then -1 else 0

def transpose3 (m : Matrix3) : Matrix3 :=
  !![m 0 0, m 1 0, m 2 0; m 0 1, m 1 1, m 2 1; m 0 2, m 1 2, m 2 2]

noncomputable def mul3 (a b : Matrix3) : Matrix3 :=
  fun row col => a row 0 * b 0 col + a row 1 * b 1 col + a row 2 * b 2 col

noncomputable def scale3 (scale : ℝ) (m : Matrix3) : Matrix3 :=
  !![scale * m 0 0, scale * m 0 1, scale * m 0 2; scale * m 1 0, scale * m 1 1, scale * m 1 2;
    scale * m 2 0, scale * m 2 1, scale * m 2 2]

noncomputable def validateAxes (axes : AxisConvention) : Except GeometryError Unit :=
  let entry : FrameRegistryEntry :=
    { peerId := ""
      frameId := "<anonymous>"
      handedness := if 0 ≤ determinant3 (basisMatrix axes) then .right else .left
      axes
      units := .meters }
  entry.validate.mapError .invalidAxes

noncomputable def validateFrame (entry : FrameRegistryEntry) : Except GeometryError Unit := do
  entry.validate.mapError .invalidAxes
  let det := determinant3 (basisMatrix entry.axes)
  let expected : ℤ :=
    match entry.handedness with
    | .right => 1
    | .left => -1
  if det ≠ expected then
    throw (.handednessMismatch entry.frameId entry.handedness det)
  return ()

/-- The signed permutation from vectors in one convention to vectors in another. -/
noncomputable def axisConventionMatrix (source target : AxisConvention) :
    Except GeometryError Matrix3 := do
  validateAxes source
  validateAxes target
  return mul3 (transpose3 (basisMatrix target)) (basisMatrix source)

noncomputable def conventionMatrix (source target : FrameRegistryEntry) :
    Except GeometryError Matrix4 := do
  validateFrame source
  validateFrame target
  let axes ← axisConventionMatrix source.axes target.axes
  let scale := metersPerUnit source.units / metersPerUnit target.units
  return !![scale * axes 0 0, scale * axes 0 1, scale * axes 0 2, 0;
    scale * axes 1 0, scale * axes 1 1, scale * axes 1 2, 0;
    scale * axes 2 0, scale * axes 2 1, scale * axes 2 2, 0;
    0, 0, 0, 1]

noncomputable def lengthScaledAxisMatrix (source target : FrameRegistryEntry) :
    Except GeometryError Matrix3 := do
  validateFrame source
  validateFrame target
  let axes ← axisConventionMatrix source.axes target.axes
  let scale := metersPerUnit source.units / metersPerUnit target.units
  return scale3 scale axes

def rejectMixedHandedness (source target : FrameRegistryEntry) : Except GeometryError Unit :=
  if source.handedness ≠ target.handedness then
    .error (.mixedHandednessConversion source.frameId target.frameId)
  else .ok ()

def rejectMixedUnits (source target : FrameRegistryEntry) : Except GeometryError Unit :=
  if source.units ≠ target.units then
    .error (.mixedUnitConversion source.frameId target.frameId)
  else .ok ()

/-! ### The matrix operations are Mathlib's -/

theorem transpose3_eq (m : Matrix3) : transpose3 m = mᵀ := by
  ext i j
  fin_cases i <;> fin_cases j <;> rfl

theorem mul3_eq (a b : Matrix3) : mul3 a b = a * b := by
  ext i j
  rw [mul_apply, Fin.sum_univ_three, mul3]

theorem scale3_eq (scale : ℝ) (m : Matrix3) : scale3 scale m = scale • m := by
  ext i j
  fin_cases i <;> fin_cases j <;> rfl

theorem determinant3_eq (m : Matrix3) :
    determinant3 m = if 0 < m.det then 1 else if m.det < 0 then -1 else 0 := by
  have hdet : m 0 0 * (m 1 1 * m 2 2 - m 1 2 * m 2 1) -
      m 0 1 * (m 1 0 * m 2 2 - m 1 2 * m 2 0) +
      m 0 2 * (m 1 0 * m 2 1 - m 1 1 * m 2 0) = m.det := by
    rw [det_fin_three]
    ring
  rw [determinant3, hdet]

theorem metersPerUnit_ne_zero (units : LengthUnit) : metersPerUnit units ≠ 0 := by
  cases units <;> norm_num [metersPerUnit]

/-! ### The basis of an orthogonal convention -/

theorem directionVector_self (d : AxisDirection) : directionVector d ⬝ᵥ directionVector d = 1 := by
  cases d <;> simp [directionVector]

theorem directionVector_of_ne {d e : AxisDirection} (hpair : d.axisPair ≠ e.axisPair) :
    directionVector d ⬝ᵥ directionVector e = 0 := by
  cases d <;> cases e <;> first
    | exact absurd rfl hpair
    | simp [directionVector]

/-- The three axes come from three pairs. -/
def AxisConvention.Orthogonal (axes : AxisConvention) : Prop :=
  axes.x.axisPair ≠ axes.y.axisPair ∧ axes.y.axisPair ≠ axes.z.axisPair ∧
    axes.x.axisPair ≠ axes.z.axisPair

variable {entry : FrameRegistryEntry}

theorem validate_eq_ok : entry.validate = .ok () ↔ entry.axes.Orthogonal := by
  simp only [FrameRegistryEntry.validate, AxisConvention.Orthogonal]
  split
  · simp only [reduceCtorEq, false_iff]
    tauto
  · simp only [true_iff]
    tauto

theorem basisMatrix_column (axes : AxisConvention) (i j : Fin 3) :
    basisMatrix axes i j = ![directionVector axes.x, directionVector axes.y,
      directionVector axes.z] j i := by
  fin_cases i <;> fin_cases j <;> rfl

variable {axes : AxisConvention}

theorem basisMatrix_mem (horth : axes.Orthogonal) :
    basisMatrix axes ∈ orthogonalGroup (Fin 3) ℝ := by
  obtain ⟨hxy, hyz, hxz⟩ := horth
  refine (mem_orthogonalGroup_iff' (Fin 3) ℝ).mpr ?_
  ext i j
  have hdot : ((basisMatrix axes)ᵀ * basisMatrix axes) i j =
      ![directionVector axes.x, directionVector axes.y, directionVector axes.z] i ⬝ᵥ
        ![directionVector axes.x, directionVector axes.y, directionVector axes.z] j := by
    simp only [mul_apply, transpose_apply, basisMatrix_column, dotProduct]
  rw [hdot]
  fin_cases i <;> fin_cases j <;>
    simp [directionVector_self, directionVector_of_ne, hxy, hyz, hxz, hxy.symm, hyz.symm, hxz.symm]

/-! ### Valid frames -/

def Handedness.sign : Handedness → ℝ
  | .right => 1
  | .left => -1

theorem det_mul_self {m : Matrix3} (hm : m ∈ orthogonalGroup (Fin 3) ℝ) :
    m.det * m.det = 1 := by
  calc
    m.det * m.det = (m * mᵀ).det := by rw [det_mul, det_transpose]
    _ = 1 := by rw [(mem_orthogonalGroup_iff (Fin 3) ℝ).mp hm, det_one]

theorem validateAxes_eq_ok (horth : axes.Orthogonal) : validateAxes axes = .ok () := by
  rw [validateAxes, validate_eq_ok.mpr horth]
  rfl

theorem validateFrame_ok (hval : validateFrame entry = .ok ()) :
    entry.axes.Orthogonal ∧ (basisMatrix entry.axes).det = entry.handedness.sign := by
  rw [validateFrame] at hval
  cases hent : entry.validate with
  | error message => rw [hent] at hval; cases hval
  | ok passed =>
    have horth := validate_eq_ok.mp hent
    refine ⟨horth, ?_⟩
    have hdet := mul_self_eq_one_iff.mp (det_mul_self (basisMatrix_mem horth))
    rw [hent, determinant3_eq] at hval
    rcases hdet with hdet | hdet <;> rw [hdet] at hval ⊢ <;>
      cases hhand : entry.handedness <;> rw [hhand] at hval
    case inl.right | inr.left => rfl
    case inl.left | inr.right =>
      norm_num [Except.mapError, bind, Except.bind, throw, throwThe, MonadExceptOf.throw] at hval
      cases hval

noncomputable def axisMatrix (source target : AxisConvention) : Matrix3 :=
  (basisMatrix target)ᵀ * basisMatrix source

variable {target source : AxisConvention}

theorem axisConventionMatrix_ok (hsrc : source.Orthogonal) (htgt : target.Orthogonal) :
    axisConventionMatrix source target = .ok (axisMatrix source target) := by
  rw [axisConventionMatrix, validateAxes_eq_ok hsrc, validateAxes_eq_ok htgt, mul3_eq,
    transpose3_eq]
  rfl

theorem transpose_axisMatrix (source target : AxisConvention) :
    (axisMatrix source target)ᵀ = axisMatrix target source := by
  rw [axisMatrix, transpose_mul, transpose_transpose, axisMatrix]

theorem axisMatrix_trans {first second third : AxisConvention}
    (horth : second.Orthogonal) :
    axisMatrix second third * axisMatrix first second = axisMatrix first third := by
  have hsnd := (mem_orthogonalGroup_iff (Fin 3) ℝ).mp (basisMatrix_mem horth)
  calc
    axisMatrix second third * axisMatrix first second
        = (basisMatrix third)ᵀ * (basisMatrix second * (basisMatrix second)ᵀ) *
            basisMatrix first := by
      simp only [axisMatrix, Matrix.mul_assoc]
    _ = axisMatrix first third := by rw [hsnd, Matrix.mul_one, axisMatrix]

theorem axisMatrix_self (horth : axes.Orthogonal) : axisMatrix axes axes = 1 :=
  (mem_orthogonalGroup_iff' (Fin 3) ℝ).mp (basisMatrix_mem horth)

theorem axisMatrix_mem (hsrc : source.Orthogonal) (htgt : target.Orthogonal) :
    axisMatrix source target ∈ orthogonalGroup (Fin 3) ℝ := by
  refine (mem_orthogonalGroup_iff (Fin 3) ℝ).mpr ?_
  rw [transpose_axisMatrix, axisMatrix_trans hsrc, axisMatrix_self htgt]

theorem axisMatrix_rotation {source target : FrameRegistryEntry}
    (hsrc : validateFrame source = .ok ()) (htgt : validateFrame target = .ok ())
    (hhan : source.handedness = target.handedness) :
    axisMatrix source.axes target.axes ∈ specialOrthogonalGroup (Fin 3) ℝ := by
  obtain ⟨hsou, hsot⟩ := validateFrame_ok hsrc
  obtain ⟨htar, htrg⟩ := validateFrame_ok htgt
  refine mem_specialOrthogonalGroup_iff.mpr ⟨axisMatrix_mem hsou htar, ?_⟩
  rw [axisMatrix, det_mul, det_transpose, htrg, hsot, hhan]
  cases target.handedness <;> norm_num [Handedness.sign]

/-- A rotation stays one in another convention, whatever its handedness. -/
theorem conjugate_rotation {m : Matrix3} (hsrc : source.Orthogonal) (htgt : target.Orthogonal)
    (hrot : m ∈ specialOrthogonalGroup (Fin 3) ℝ) :
    axisMatrix source target * m * (axisMatrix source target)ᵀ ∈
      specialOrthogonalGroup (Fin 3) ℝ := by
  obtain ⟨horth, hdet⟩ := mem_specialOrthogonalGroup_iff.mp hrot
  have haxes := axisMatrix_mem hsrc htgt
  have hback := axisMatrix_mem htgt hsrc
  rw [← transpose_axisMatrix] at hback
  refine mem_specialOrthogonalGroup_iff.mpr ⟨mul_mem (mul_mem haxes horth) hback, ?_⟩
  rw [det_mul, det_mul, det_transpose, hdet, mul_one, det_mul_self haxes]

noncomputable def unitScale (source target : LengthUnit) : ℝ :=
  metersPerUnit source / metersPerUnit target

theorem unitScale_self (units : LengthUnit) : unitScale units units = 1 :=
  div_self (metersPerUnit_ne_zero units)

theorem unitScale_trans (first second third : LengthUnit) :
    unitScale second third * unitScale first second = unitScale first third := by
  have hsnd := metersPerUnit_ne_zero second
  unfold unitScale
  field_simp

theorem conventionMatrix_ok {source target : FrameRegistryEntry}
    (hsrc : validateFrame source = .ok ()) (htgt : validateFrame target = .ok ()) :
    conventionMatrix source target = .ok (Rotation.homogeneous
      (unitScale source.units target.units • axisMatrix source.axes target.axes) 0) := by
  rw [conventionMatrix, hsrc, htgt, axisConventionMatrix_ok (validateFrame_ok hsrc).1
    (validateFrame_ok htgt).1]
  rfl

theorem lengthScaledAxisMatrix_ok {source target : FrameRegistryEntry}
    (hsrc : validateFrame source = .ok ()) (htgt : validateFrame target = .ok ()) :
    lengthScaledAxisMatrix source target =
      .ok (unitScale source.units target.units • axisMatrix source.axes target.axes) := by
  rw [lengthScaledAxisMatrix, hsrc, htgt, axisConventionMatrix_ok
    (validateFrame_ok hsrc).1 (validateFrame_ok htgt).1]
  exact congrArg Except.ok (scale3_eq _ _)

/-! ### Presets -/

/-- The body frame of a robot: `x` forward, `y` left, `z` up. -/
def FrameRegistryEntry.rosBody (peerId frameId : String) : FrameRegistryEntry where
  peerId
  frameId
  handedness := .right
  axes := ⟨.forward, .left, .up⟩
  units := .meters

/-- A camera's optical frame: `x` right, `y` down, `z` forward. -/
def FrameRegistryEntry.rosOptical (peerId frameId : String) : FrameRegistryEntry where
  peerId
  frameId
  handedness := .right
  axes := ⟨.right, .down, .forward⟩
  units := .meters

/-- The left-handed frame of Unity: `x` right, `y` up, `z` forward. -/
def FrameRegistryEntry.unity (peerId frameId : String) : FrameRegistryEntry where
  peerId
  frameId
  handedness := .left
  axes := ⟨.right, .up, .forward⟩
  units := .meters

theorem validateFrame_of (horth : entry.axes.Orthogonal)
    (hdet : (basisMatrix entry.axes).det = entry.handedness.sign) :
    validateFrame entry = .ok () := by
  rw [validateFrame, validate_eq_ok.mpr horth, determinant3_eq, hdet]
  cases entry.handedness <;> norm_num [Handedness.sign, Except.mapError]

theorem validateFrame_presets (peerId frameId : String) :
    validateFrame (.rosBody peerId frameId) = .ok () ∧
      validateFrame (.rosOptical peerId frameId) = .ok () ∧
      validateFrame (.unity peerId frameId) = .ok () := by
  refine ⟨validateFrame_of ?_ ?_, validateFrame_of ?_ ?_, validateFrame_of ?_ ?_⟩
  all_goals simp [FrameRegistryEntry.rosBody, FrameRegistryEntry.rosOptical,
    FrameRegistryEntry.unity, AxisConvention.Orthogonal, AxisDirection.axisPair, basisMatrix,
    directionVector, det_fin_three, Handedness.sign]

end AukiSdk.Geometry
