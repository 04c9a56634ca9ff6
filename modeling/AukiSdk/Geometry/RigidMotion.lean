import AukiSdk.Foundation.Checks
import AukiSdk.Geometry.SpatialTransform

/-!
# The algebra of rigid motions

Transforms are motions `p ↦ r p + t`, and the operations on them those on motions.
-/

namespace AukiSdk.Geometry

open Matrix Option
open AukiSdk.Foundation

def Vec3.toVector (v : Vec3) : Fin 3 → ℝ :=
  ![v.x, v.y, v.z]

/-- The quaternion, if present, has a norm above the zero threshold. -/
def SpatialTransform.Oriented (transform : SpatialTransform) : Prop :=
  ∀ q ∈ transform.orientation, epsilon < q.norm

/-- The transform is the motion `p ↦ r p + t`. -/
structure SpatialTransform.Moves (transform : SpatialTransform) (r : Matrix3)
    (t : Fin 3 → ℝ) : Prop where
  rotation : r ∈ specialOrthogonalGroup (Fin 3) ℝ
  rotation_eq : spatialTransformRotation transform = .ok r
  translation_eq : (spatialTransformTranslation transform).toVector = t

/-- The result is a transform with the given matrix. -/
def HasMatrix {ε : Type} (result : Except ε SpatialTransform) (m : Matrix4) : Prop :=
  ∃ transform, result = .ok transform ∧ spatialTransformToMatrix4 transform = .ok m

theorem applyMatrix3ToVec3_eq (m : Matrix3) (v : Vec3) :
    ∃ image, applyMatrix3ToVec3 m v = .ok image ∧ image.toVector = m *ᵥ v.toVector := by
  refine ⟨_, rfl, ?_⟩
  ext i
  fin_cases i <;> simp [Vec3.toVector, mulVec, dotProduct, Fin.sum_univ_three]

theorem toVector_addVec3 (a b : Vec3) : (addVec3 a b).toVector = a.toVector + b.toVector := by
  ext i
  fin_cases i <;> rfl

theorem toVector_negateVec3 (v : Vec3) : (negateVec3 v).toVector = -v.toVector := by
  ext i
  fin_cases i <;> rfl

theorem norm_identity : Quat.norm ⟨0, 0, 0, 1⟩ = 1 := by
  norm_num [Quat.norm]

theorem SpatialTransform.Oriented.moves {transform : SpatialTransform}
    (horn : transform.Oriented) :
    ∃ r, transform.Moves r (spatialTransformTranslation transform).toVector := by
  have hnorm : epsilon < (transform.orientation.getD ⟨0, 0, 0, 1⟩).norm := by
    cases hori : transform.orientation with
    | none => exact norm_identity.symm ▸ epsilon_lt_one
    | some q => exact horn q hori
  refine ⟨_, quatToMatrix_normalized hnorm, ?_, rfl⟩
  rw [spatialTransformRotation, normalizeQuat_eq hnorm]
  rfl

theorem moves_of_rotation {r : Matrix3} (hrot : r ∈ specialOrthogonalGroup (Fin 3) ℝ)
    (v : Vec3) : SpatialTransform.Moves ⟨some v, some (quatCandidate r)⟩ r v.toVector := by
  refine ⟨hrot, ?_, rfl⟩
  rw [spatialTransformRotation, getD_some, normalizeQuat_of_unit (norm_quatCandidate hrot)]
  exact congrArg Except.ok (quatToMatrix_quatCandidate hrot)

namespace SpatialTransform.Moves

variable {first second : SpatialTransform} {r q : Matrix3} {s t : Fin 3 → ℝ}

theorem matrix (hmov : first.Moves r s) :
    spatialTransformToMatrix4 first = .ok (Rotation.homogeneous r s) := by
  rw [spatialTransformToMatrix4, hmov.rotation_eq, ← hmov.translation_eq]
  rfl

theorem hasMatrix {ε : Type} {result : Except ε SpatialTransform}
    (hmov : first.Moves r s) (hres : result = .ok first) :
    HasMatrix result (Rotation.homogeneous r s) :=
  ⟨first, hres, hmov.matrix⟩

theorem compose (hfst : first.Moves r s) (hsnd : second.Moves q t) :
    ∃ both, composeSpatialTransforms first second = .ok both ∧ both.Moves (q * r) (q *ᵥ s + t) := by
  obtain ⟨rotated, hrotated, hvec⟩ := applyMatrix3ToVec3_eq q (spatialTransformTranslation first)
  have hrot := mul_mem hsnd.rotation hfst.rotation
  refine ⟨⟨some (addVec3 rotated (spatialTransformTranslation second)),
    some (quatCandidate (q * r))⟩, ?_, ?_⟩
  · rw [composeSpatialTransforms, hfst.rotation_eq, hsnd.rotation_eq]
    simp only [mul3_eq, bind, Except.bind, hrotated, matrixToQuat_eq hrot]
    rfl
  · rw [← hfst.translation_eq, ← hvec, ← hsnd.translation_eq, ← toVector_addVec3]
    exact moves_of_rotation hrot _

theorem inverse (hfst : first.Moves r s) :
    ∃ back, inverseSpatialTransform first = .ok back ∧ back.Moves rᵀ (-(rᵀ *ᵥ s)) := by
  obtain ⟨rotated, hrotated, hvec⟩ := applyMatrix3ToVec3_eq rᵀ (spatialTransformTranslation first)
  have hrot : rᵀ ∈ specialOrthogonalGroup (Fin 3) ℝ := by
    obtain ⟨horth, hdet⟩ := mem_specialOrthogonalGroup_iff.mp hfst.rotation
    refine mem_specialOrthogonalGroup_iff.mpr ⟨?_, by rw [det_transpose, hdet]⟩
    refine (mem_orthogonalGroup_iff (Fin 3) ℝ).mpr ?_
    rw [transpose_transpose]
    exact (mem_orthogonalGroup_iff' (Fin 3) ℝ).mp horth
  refine ⟨⟨some (negateVec3 rotated), some (quatCandidate rᵀ)⟩, ?_, ?_⟩
  · rw [inverseSpatialTransform, hfst.rotation_eq]
    simp only [transpose3_eq, bind, Except.bind, hrotated, matrixToQuat_eq hrot]
    rfl
  · rw [← hfst.translation_eq, ← hvec, ← toVector_negateVec3]
    exact moves_of_rotation hrot _

theorem homogeneous_inverse (hfst : first.Moves r s) :
    Rotation.homogeneous r s * Rotation.homogeneous rᵀ (-(rᵀ *ᵥ s)) = 1 := by
  have horth := (mem_orthogonalGroup_iff (Fin 3) ℝ).mp
    (mem_specialOrthogonalGroup_iff.mp hfst.rotation).1
  rw [Rotation.homogeneous_mul, horth, mulVec_neg, mulVec_mulVec, horth,
    one_mulVec, neg_add_cancel, Rotation.homogeneous_one]

theorem fromMatrix (hfst : first.Moves r s) :
    ∃ rebuilt, spatialTransformFromMatrix4 (Rotation.homogeneous r s) = .ok rebuilt ∧
      rebuilt.Moves r s := by
  have hblo : !![Rotation.homogeneous r s 0 0, Rotation.homogeneous r s 0 1,
      Rotation.homogeneous r s 0 2; Rotation.homogeneous r s 1 0,
      Rotation.homogeneous r s 1 1, Rotation.homogeneous r s 1 2;
      Rotation.homogeneous r s 2 0, Rotation.homogeneous r s 2 1,
      Rotation.homogeneous r s 2 2] = r := by
    ext i j
    fin_cases i <;> fin_cases j <;> rfl
  refine ⟨⟨some ⟨s 0, s 1, s 2⟩, some (quatCandidate r)⟩, ?_, ?_⟩
  · rw [spatialTransformFromMatrix4]
    simp only [hblo, matrixToQuat_eq hfst.rotation]
    rfl
  · have hvec : Vec3.toVector ⟨s 0, s 1, s 2⟩ = s := by
      ext i
      fin_cases i <;> rfl
    have hreb := moves_of_rotation hfst.rotation ⟨s 0, s 1, s 2⟩
    rwa [hvec] at hreb

end SpatialTransform.Moves

/-! ### Conventions -/

theorem quatToMatrix_identity : quatToMatrix ⟨0, 0, 0, 1⟩ = 1 := by
  ext i j
  fin_cases i <;> fin_cases j <;> simp [quatToMatrix]

theorem convertOrientationConvention_ok {q : Quat} {source target : FrameRegistryEntry}
    {r : Matrix3} (hsrc : source.axes.Orthogonal) (htgt : target.axes.Orthogonal)
    (hrot : r ∈ specialOrthogonalGroup (Fin 3) ℝ)
    (hquat : (do return quatToMatrix (← normalizeQuat q)) = Except.ok r) :
    convertOrientationConvention q source target =
      .ok (quatCandidate (axisMatrix source.axes target.axes * r *
        (axisMatrix source.axes target.axes)ᵀ)) := by
  obtain ⟨unit, hunit, hmat⟩ := Checks.bind_eq_ok.mp hquat
  have hmat : quatToMatrix unit = r := Except.ok.inj hmat
  have hcon := conjugate_rotation hsrc htgt hrot
  rw [convertOrientationConvention, axisConventionMatrix_ok hsrc htgt, hunit]
  simp only [mul3_eq, transpose3_eq, Except.mapError, bind, Except.bind, hmat,
    matrixToQuat_eq hcon, normalizeQuat_of_unit (norm_quatCandidate hcon)]

theorem convertPointConvention_ok (v : Vec3) {source target : FrameRegistryEntry}
    (hsrc : validateFrame source = .ok ()) (htgt : validateFrame target = .ok ()) :
    ∃ image, convertPointConvention v source target = .ok image ∧
      image.toVector = (unitScale source.units target.units •
        axisMatrix source.axes target.axes) *ᵥ v.toVector := by
  obtain ⟨image, hima, hvec⟩ := applyMatrix3ToVec3_eq
    (unitScale source.units target.units • axisMatrix source.axes target.axes) v
  refine ⟨image, ?_, hvec⟩
  rw [convertPointConvention, lengthScaledAxisMatrix_ok hsrc htgt]
  exact hima

namespace SpatialTransform.Moves

variable {pose : SpatialTransform} {r : Matrix3} {t : Fin 3 → ℝ}
  {source target : FrameRegistryEntry}

theorem convertedTranslation (hmov : pose.Moves r t)
    (hsrc : validateFrame source = .ok ()) (htgt : validateFrame target = .ok ()) :
    ∃ translation, (pose.translation.mapM fun v =>
        (convertVectorConvention v source target).mapError ConversionFault.returned) =
          .ok translation ∧
      (translation.getD ⟨0, 0, 0⟩).toVector = (unitScale source.units target.units •
        axisMatrix source.axes target.axes) *ᵥ t := by
  have hvec := hmov.translation_eq
  unfold spatialTransformTranslation at hvec
  cases htra : pose.translation with
  | none =>
    refine ⟨none, rfl, ?_⟩
    have hzero : Vec3.toVector ⟨0, 0, 0⟩ = 0 := by
      ext i
      fin_cases i <;> rfl
    rw [← hvec, htra, getD_none, hzero, mulVec_zero]
  | some v =>
    obtain ⟨image, hima, himg⟩ := convertPointConvention_ok v hsrc htgt
    refine ⟨some image, ?_, ?_⟩
    · rw [mapM_some, convertVectorConvention, hima]
      rfl
    · rw [← hvec, htra]
      exact himg

theorem convertedOrientation (hmov : pose.Moves r t)
    (hsrc : source.axes.Orthogonal) (htgt : target.axes.Orthogonal) :
    ∃ orientation, (pose.orientation.mapM fun q =>
        convertOrientationConvention q source target) = .ok orientation ∧
      (do return quatToMatrix (← normalizeQuat (orientation.getD ⟨0, 0, 0, 1⟩))) =
        (Except.ok (axisMatrix source.axes target.axes * r *
          (axisMatrix source.axes target.axes)ᵀ) : Except GeometryError Matrix3) := by
  have hrot := hmov.rotation_eq
  unfold spatialTransformRotation at hrot
  dsimp only at hrot
  cases hori : pose.orientation with
  | none =>
    refine ⟨none, rfl, ?_⟩
    rw [hori, getD_none, normalizeQuat_of_unit norm_identity] at hrot
    have hide : r = 1 := (Except.ok.inj hrot).symm.trans quatToMatrix_identity
    have horth := (mem_orthogonalGroup_iff (Fin 3) ℝ).mp
      (axisMatrix_mem hsrc htgt)
    rw [getD_none, normalizeQuat_of_unit norm_identity, hide, Matrix.mul_one, horth]
    exact congrArg Except.ok quatToMatrix_identity
  | some q =>
    rw [hori, getD_some] at hrot
    have hcon := conjugate_rotation hsrc htgt hmov.rotation
    refine ⟨some (quatCandidate (axisMatrix source.axes target.axes * r *
      (axisMatrix source.axes target.axes)ᵀ)), ?_, ?_⟩
    · rw [mapM_some, convertOrientationConvention_ok hsrc htgt hmov.rotation hrot]
      rfl
    · rw [getD_some, normalizeQuat_of_unit (norm_quatCandidate hcon)]
      exact congrArg Except.ok (quatToMatrix_quatCandidate hcon)

theorem convertPose (hmov : pose.Moves r t)
    (hsrc : validateFrame source = .ok ()) (htgt : validateFrame target = .ok ()) :
    ∃ converted, convertPoseConvention pose source target = .ok converted ∧ converted.Moves
        (axisMatrix source.axes target.axes * r * (axisMatrix source.axes target.axes)ᵀ)
        ((unitScale source.units target.units • axisMatrix source.axes target.axes) *ᵥ t) := by
  obtain ⟨hsou, _⟩ := validateFrame_ok hsrc
  obtain ⟨htar, _⟩ := validateFrame_ok htgt
  obtain ⟨translation, htra, hvec⟩ := hmov.convertedTranslation hsrc htgt
  obtain ⟨orientation, hori, hmat⟩ := hmov.convertedOrientation hsou htar
  refine ⟨⟨translation, orientation⟩, ?_, conjugate_rotation hsou htar hmov.rotation, hmat, hvec⟩
  rw [convertPoseConvention, hsrc, htgt, htra, hori]
  rfl

end SpatialTransform.Moves

theorem axisOnlyTransform_moves {source target : FrameRegistryEntry}
    (hsrc : validateFrame source = .ok ()) (htgt : validateFrame target = .ok ())
    (hhand : source.handedness = target.handedness) :
    ∃ turn, axisOnlyTransform source.axes target.axes = .ok turn ∧
      turn.Moves (axisMatrix source.axes target.axes) 0 := by
  have hrot := axisMatrix_rotation hsrc htgt hhand
  have hturn := moves_of_rotation hrot ⟨0, 0, 0⟩
  have hzero : Vec3.toVector ⟨0, 0, 0⟩ = 0 := by
    ext i
    fin_cases i <;> rfl
  rw [hzero] at hturn
  refine ⟨_, ?_, hturn⟩
  rw [axisOnlyTransform, axisConventionMatrix_ok (validateFrame_ok hsrc).1
    (validateFrame_ok htgt).1]
  simp only [bind, Except.bind, matrixToQuat_eq hrot]
  rfl

theorem SpatialTransform.Moves.convertBothSides {pose : SpatialTransform} {r : Matrix3}
    {t : Fin 3 → ℝ} {source target : FrameRegistryEntry} (hmov : pose.Moves r t)
    (hsrc : validateFrame source = .ok ()) (htgt : validateFrame target = .ok ())
    (hhand : source.handedness = target.handedness) (huni : source.units = target.units) :
    ∃ converted, (do
        let half ← convertTransformSourceConvention pose source target
        convertTransformTargetConvention half source target) = .ok converted ∧
      converted.Moves
        (axisMatrix source.axes target.axes * r * (axisMatrix source.axes target.axes)ᵀ)
        ((unitScale source.units target.units • axisMatrix source.axes target.axes) *ᵥ t) := by
  obtain ⟨back, hback, hbac⟩ := axisOnlyTransform_moves htgt hsrc hhand.symm
  obtain ⟨turn, hturn, htur⟩ := axisOnlyTransform_moves hsrc htgt hhand
  obtain ⟨half, hhalf, hhal⟩ := hbac.compose hmov
  obtain ⟨converted, hcon, hcnv⟩ := hhal.compose htur
  have hrej : rejectMixedHandedness source target = .ok () := if_neg (not_not.mpr hhand)
  have hrjc : rejectMixedUnits source target = .ok () := if_neg (not_not.mpr huni)
  refine ⟨converted, ?_, ?_⟩
  · have hfst : convertTransformSourceConvention pose source target = .ok half := by
      rw [convertTransformSourceConvention, hsrc, htgt, hrej, hrjc, hback]
      exact hhalf
    have hsnd : convertTransformTargetConvention half source target = .ok converted := by
      rw [convertTransformTargetConvention, hsrc, htgt, hrej, hrjc, hturn]
      exact hcon
    rw [hfst]
    exact hsnd
  · rw [mulVec_zero, zero_add, add_zero, ← Matrix.mul_assoc] at hcnv
    rw [huni, unitScale_self, one_smul, transpose_axisMatrix]
    exact hcnv

theorem conjugate_homogeneous {source target : AxisConvention} {k : ℝ} (hsca : k ≠ 0)
    (hsrc : source.Orthogonal) (htgt : target.Orthogonal) (r : Matrix3) (t : Fin 3 → ℝ) :
    Rotation.homogeneous (axisMatrix source target * r * (axisMatrix source target)ᵀ)
        ((k • axisMatrix source target) *ᵥ t) =
      Rotation.homogeneous (k • axisMatrix source target) 0 * Rotation.homogeneous r t *
        (Rotation.homogeneous (k • axisMatrix source target) 0)⁻¹ := by
  have haxes := axisMatrix_mem hsrc htgt
  have hrgt := (mem_orthogonalGroup_iff (Fin 3) ℝ).mp haxes
  have hinv : Rotation.homogeneous (k • axisMatrix source target) 0 *
      Rotation.homogeneous (k⁻¹ • (axisMatrix source target)ᵀ) 0 = 1 := by
    rw [Rotation.homogeneous_mul, smul_mul_smul_comm, mul_inv_cancel₀ hsca, one_smul, hrgt,
      mulVec_zero, add_zero, Rotation.homogeneous_one]
  rw [inv_eq_right_inv hinv, Rotation.homogeneous_mul, Rotation.homogeneous_mul,
    mulVec_zero, zero_add, add_zero, smul_mul_assoc, smul_mul_smul_comm,
    mul_inv_cancel₀ hsca, one_smul]

theorem conventionMatrix_inverse {source target : FrameRegistryEntry}
    (hsrc : validateFrame source = .ok ()) (htgt : validateFrame target = .ok ()) :
    Rotation.homogeneous (unitScale source.units target.units •
        axisMatrix source.axes target.axes) 0 *
      (Rotation.homogeneous (unitScale source.units target.units •
        axisMatrix source.axes target.axes) 0)⁻¹ = 1 := by
  refine mul_nonsing_inv _ ?_
  have hrou : Rotation.homogeneous (unitScale source.units target.units •
        axisMatrix source.axes target.axes) 0 *
      Rotation.homogeneous (unitScale target.units source.units •
        axisMatrix target.axes source.axes) 0 = 1 := by
    rw [Rotation.homogeneous_mul, smul_mul_smul_comm, unitScale_trans, unitScale_self, one_smul,
      axisMatrix_trans (validateFrame_ok hsrc).1, axisMatrix_self (validateFrame_ok htgt).1,
      mulVec_zero, add_zero, Rotation.homogeneous_one]
  exact (isUnit_iff_isUnit_det _).mp (IsUnit.of_mul_eq_one _ hrou)

/-- Transforms form the algebra of rigid motions, with conventions by conjugation. -/
theorem spatial_transforms_are_rigid_motions (t u : SpatialTransform)
    (ht : t.Oriented) (hu : u.Oriented) (a b c : FrameRegistryEntry)
    (ha : validateFrame a = .ok ()) (hb : validateFrame b = .ok ())
    (hc : validateFrame c = .ok ()) :
    (∀ m ∈ specialOrthogonalGroup (Fin 3) ℝ, quatDivisor m ≠ 0 ∧ (quatCandidate m).norm ≠ 0 ∧
      ∃ q, matrixToQuat m = .ok q ∧ quatToMatrix q = m) ∧
    ∃ mt mu cab cbc, spatialTransformToMatrix4 t = .ok mt ∧ spatialTransformToMatrix4 u = .ok mu ∧
      HasMatrix (composeSpatialTransforms t u) (mu * mt) ∧
      mt * mt⁻¹ = 1 ∧ HasMatrix (inverseSpatialTransform t) mt⁻¹ ∧
      HasMatrix (do relativeSpatialTransform t (← composeSpatialTransforms t u)) mu ∧
      HasMatrix (spatialTransformFromMatrix4 mt) mt ∧
      conventionMatrix a b = .ok cab ∧ conventionMatrix b c = .ok cbc ∧
      conventionMatrix a c = .ok (cbc * cab) ∧ cab * cab⁻¹ = 1 ∧
      HasMatrix (convertPoseConvention t a b) (cab * mt * cab⁻¹) ∧
      (a.handedness = b.handedness → a.units = b.units → HasMatrix (do
            let half ← convertTransformSourceConvention t a b
            convertTransformTargetConvention half a b)
          (cab * mt * cab⁻¹)) := by
  obtain ⟨r, hfirst⟩ := ht.moves
  obtain ⟨q, hsecond⟩ := hu.moves
  obtain ⟨back, hback, hbackMoves⟩ := hfirst.inverse
  obtain ⟨both, hboth, hbothMoves⟩ := hfirst.compose hsecond
  obtain ⟨relative, hrelative, hrelativeMoves⟩ := hbackMoves.compose hbothMoves
  obtain ⟨rebuilt, hrebuilt, hrebuiltMoves⟩ := hfirst.fromMatrix
  obtain ⟨converted, hconverted, hconvertedMoves⟩ := hfirst.convertPose ha hb
  have hinverse := hfirst.homogeneous_inverse
  obtain ⟨haAxes, _⟩ := validateFrame_ok ha
  obtain ⟨hbAxes, _⟩ := validateFrame_ok hb
  have hscale : unitScale a.units b.units ≠ 0 :=
    div_ne_zero (metersPerUnit_ne_zero _) (metersPerUnit_ne_zero _)
  refine ⟨fun m hm => ⟨quatDivisor_ne_zero m, ?_, _, matrixToQuat_eq hm,
      quatToMatrix_quatCandidate hm⟩,
    _, _, _, _, hfirst.matrix, hsecond.matrix, ?_, ?_, ?_, ?_, hrebuiltMoves.hasMatrix hrebuilt,
    conventionMatrix_ok ha hb, conventionMatrix_ok hb hc, ?_, conventionMatrix_inverse ha hb,
    ?_, ?_⟩
  · rw [norm_quatCandidate hm]
    exact one_ne_zero
  · rw [Rotation.homogeneous_mul]
    exact hbothMoves.hasMatrix hboth
  · rw [inv_eq_right_inv hinverse]
    exact hinverse
  · rw [inv_eq_right_inv hinverse]
    exact hbackMoves.hasMatrix hback
  · have hmatrix : Rotation.homogeneous q (spatialTransformTranslation u).toVector =
        Rotation.homogeneous (q * r) (q *ᵥ (spatialTransformTranslation t).toVector +
            (spatialTransformTranslation u).toVector) *
          Rotation.homogeneous rᵀ (-(rᵀ *ᵥ (spatialTransformTranslation t).toVector)) := by
      rw [← Rotation.homogeneous_mul, Matrix.mul_assoc, hinverse, Matrix.mul_one]
    rw [hmatrix, Rotation.homogeneous_mul, hboth]
    refine hrelativeMoves.hasMatrix ?_
    change relativeSpatialTransform t both = .ok relative
    rw [relativeSpatialTransform, hback]
    exact hrelative
  · rw [Rotation.homogeneous_mul, smul_mul_smul_comm, unitScale_trans, axisMatrix_trans hbAxes,
      mulVec_zero, add_zero]
    exact conventionMatrix_ok ha hc
  · rw [← conjugate_homogeneous hscale haAxes hbAxes]
    exact hconvertedMoves.hasMatrix hconverted
  · intro hhandedness hunits
    obtain ⟨sides, hsides, hsidesMoves⟩ := hfirst.convertBothSides ha hb hhandedness hunits
    rw [← conjugate_homogeneous hscale haAxes hbAxes]
    exact hsidesMoves.hasMatrix hsides

/-! ### A quarter turn -/

/-- A quarter turn about `z` with an unnormalized quaternion. -/
def quarterTurn : SpatialTransform :=
  ⟨some ⟨1, 2, 3⟩, some ⟨0, 0, 1, 1⟩⟩

def lift : SpatialTransform :=
  ⟨some ⟨0, 0, 5⟩, none⟩

theorem quarterTurn_oriented : quarterTurn.Oriented := by
  rintro q hq
  obtain rfl : (⟨0, 0, 1, 1⟩ : Quat) = q := some.inj hq
  refine Real.lt_sqrt_of_sq_lt ?_
  norm_num [epsilon]

theorem lift_oriented : lift.Oriented := by
  rintro q hq
  cases hq

theorem spatial_transforms_are_rigid_motions_sample : ∃ mt mu cab,
      spatialTransformToMatrix4 quarterTurn = .ok mt ∧ spatialTransformToMatrix4 lift = .ok mu ∧
      HasMatrix (composeSpatialTransforms quarterTurn lift) (mu * mt) ∧
      HasMatrix (do
          let half ← convertTransformSourceConvention quarterTurn
            (.rosBody "peer" "base") (.rosOptical "peer" "camera")
          convertTransformTargetConvention half
            (.rosBody "peer" "base") (.rosOptical "peer" "camera"))
        (cab * mt * cab⁻¹) := by
  obtain ⟨_, mt, mu, cab, _, hmt, hmu, hboth, _, _, _, _, _, _, _, _, _, hsides⟩ :=
    spatial_transforms_are_rigid_motions quarterTurn lift quarterTurn_oriented lift_oriented
      (.rosBody "peer" "base") (.rosOptical "peer" "camera")
      (.unity "peer" "scene") (validateFrame_presets _ _).1 (validateFrame_presets _ _).2.1
      (validateFrame_presets _ _).2.2
  exact ⟨mt, mu, cab, hmt, hmu, hboth, hsides rfl rfl⟩

end AukiSdk.Geometry
