import Mathlib

/-!
# Rotations and unit quaternions

Products of quaternion components are linear in the rotation matrix.
-/

namespace AukiSdk.Foundation.Rotation

open Matrix

local instance neZeroThree : NeZero 3 := inferInstance

local instance atLeastTwo : Nat.AtLeastTwo 2 := inferInstance

section Ring

variable {R : Type*} [CommRing R]

/-- The matrix of a quaternion with components `w`, `x`, `y` and `z`. -/
def quaternionMatrix (w x y z : R) : Matrix (Fin 3) (Fin 3) R :=
  !![1 - 2 * (y * y + z * z), 2 * (x * y - w * z), 2 * (x * z + w * y);
    2 * (x * y + w * z), 1 - 2 * (x * x + z * z), 2 * (y * z - w * x);
    2 * (x * z - w * y), 2 * (y * z + w * x), 1 - 2 * (x * x + y * y)]

/-- Four times the products of the components of a matrix's quaternion. -/
def products (m : Matrix (Fin 3) (Fin 3) R) : Matrix (Fin 4) (Fin 4) R :=
  !![1 + m 0 0 + m 1 1 + m 2 2, m 2 1 - m 1 2, m 0 2 - m 2 0, m 1 0 - m 0 1;
    m 2 1 - m 1 2, 1 + m 0 0 - m 1 1 - m 2 2, m 0 1 + m 1 0, m 0 2 + m 2 0;
    m 0 2 - m 2 0, m 0 1 + m 1 0, 1 + m 1 1 - m 0 0 - m 2 2, m 1 2 + m 2 1;
    m 1 0 - m 0 1, m 0 2 + m 2 0, m 1 2 + m 2 1, 1 + m 2 2 - m 0 0 - m 1 1]

theorem quaternionMatrix_mem {w x y z : R} (hunit : x * x + y * y + z * z + w * w = 1) :
    quaternionMatrix w x y z ∈ specialOrthogonalGroup (Fin 3) R := by
  refine mem_specialOrthogonalGroup_iff.mpr
    ⟨(mem_orthogonalGroup_iff (Fin 3) R).mpr ?_, ?_⟩
  · ext i j
    fin_cases i <;> fin_cases j <;>
      simp [quaternionMatrix, mul_apply, Fin.sum_univ_three] <;> grind
  · rw [quaternionMatrix, det_fin_three]
    simp only [of_apply, cons_val]
    grind

theorem transpose_eq_adjugate {m : Matrix (Fin 3) (Fin 3) R}
    (hrot : m ∈ specialOrthogonalGroup (Fin 3) R) : mᵀ = m.adjugate := by
  obtain ⟨horth, hdet⟩ := mem_specialOrthogonalGroup_iff.mp hrot
  calc
    mᵀ = mᵀ * (m * m.adjugate) := by rw [mul_adjugate, hdet, one_smul, Matrix.mul_one]
    _ = (mᵀ * m) * m.adjugate := (Matrix.mul_assoc _ _ _).symm
    _ = m.adjugate := by
      rw [(mem_orthogonalGroup_iff' (Fin 3) R).mp horth, Matrix.one_mul]

theorem row_dot {m : Matrix (Fin 3) (Fin 3) R} (hrot : m ∈ specialOrthogonalGroup (Fin 3) R)
    (i j : Fin 3) :
    m i 0 * m j 0 + m i 1 * m j 1 + m i 2 * m j 2 = (1 : Matrix (Fin 3) (Fin 3) R) i j := by
  have hent := congrFun (congrFun ((mem_orthogonalGroup_iff (Fin 3) R).mp
    (mem_specialOrthogonalGroup_iff.mp hrot).1) i) j
  simpa only [mul_apply, transpose_apply, Fin.sum_univ_three] using hent

theorem column_dot {m : Matrix (Fin 3) (Fin 3) R}
    (hrot : m ∈ specialOrthogonalGroup (Fin 3) R) (i j : Fin 3) :
    m 0 i * m 0 j + m 1 i * m 1 j + m 2 i * m 2 j = (1 : Matrix (Fin 3) (Fin 3) R) i j := by
  have hent := congrFun (congrFun ((mem_orthogonalGroup_iff' (Fin 3) R).mp
    (mem_specialOrthogonalGroup_iff.mp hrot).1) i) j
  simpa only [mul_apply, transpose_apply, Fin.sum_univ_three] using hent

theorem cofactor {m : Matrix (Fin 3) (Fin 3) R} (hrot : m ∈ specialOrthogonalGroup (Fin 3) R)
    (i j : Fin 3) : m i j = m.adjugate j i := by
  rw [← transpose_eq_adjugate hrot, transpose_apply]

/-- Every entry is its cofactor, and rows and columns are orthonormal. -/
structure Equations (m : Matrix (Fin 3) (Fin 3) R) : Prop where
  c00 : m 0 0 = m 1 1 * m 2 2 - m 1 2 * m 2 1
  c01 : m 0 1 = m 1 2 * m 2 0 - m 1 0 * m 2 2
  c02 : m 0 2 = m 1 0 * m 2 1 - m 1 1 * m 2 0
  c10 : m 1 0 = m 2 1 * m 0 2 - m 2 2 * m 0 1
  c11 : m 1 1 = m 2 2 * m 0 0 - m 2 0 * m 0 2
  c12 : m 1 2 = m 2 0 * m 0 1 - m 2 1 * m 0 0
  c20 : m 2 0 = m 0 1 * m 1 2 - m 0 2 * m 1 1
  c21 : m 2 1 = m 0 2 * m 1 0 - m 0 0 * m 1 2
  c22 : m 2 2 = m 0 0 * m 1 1 - m 0 1 * m 1 0
  r00 : m 0 0 * m 0 0 + m 0 1 * m 0 1 + m 0 2 * m 0 2 = 1
  r01 : m 0 0 * m 1 0 + m 0 1 * m 1 1 + m 0 2 * m 1 2 = 0
  r02 : m 0 0 * m 2 0 + m 0 1 * m 2 1 + m 0 2 * m 2 2 = 0
  r11 : m 1 0 * m 1 0 + m 1 1 * m 1 1 + m 1 2 * m 1 2 = 1
  r12 : m 1 0 * m 2 0 + m 1 1 * m 2 1 + m 1 2 * m 2 2 = 0
  r22 : m 2 0 * m 2 0 + m 2 1 * m 2 1 + m 2 2 * m 2 2 = 1
  k00 : m 0 0 * m 0 0 + m 1 0 * m 1 0 + m 2 0 * m 2 0 = 1
  k01 : m 0 0 * m 0 1 + m 1 0 * m 1 1 + m 2 0 * m 2 1 = 0
  k02 : m 0 0 * m 0 2 + m 1 0 * m 1 2 + m 2 0 * m 2 2 = 0
  k11 : m 0 1 * m 0 1 + m 1 1 * m 1 1 + m 2 1 * m 2 1 = 1
  k12 : m 0 1 * m 0 2 + m 1 1 * m 1 2 + m 2 1 * m 2 2 = 0
  k22 : m 0 2 * m 0 2 + m 1 2 * m 1 2 + m 2 2 * m 2 2 = 1

theorem equations {m : Matrix (Fin 3) (Fin 3) R}
    (hrot : m ∈ specialOrthogonalGroup (Fin 3) R) : Equations m := by
  have c := cofactor hrot
  have r := row_dot hrot
  have k := column_dot hrot
  simp only [adjugate_fin_three] at c
  constructor <;> first
    | exact r _ _
    | exact k _ _
    | refine (c _ _).trans ?_
      simp only [of_apply, cons_val] <;> ring

theorem products_symm (m : Matrix (Fin 3) (Fin 3) R) (i j : Fin 4) :
    products m i j = products m j i := by
  fin_cases i <;> fin_cases j <;> rfl

theorem products_minor {m : Matrix (Fin 3) (Fin 3) R}
    (hrot : m ∈ specialOrthogonalGroup (Fin 3) R) (p i j : Fin 4) :
    products m p i * products m p j = products m p p * products m i j := by
  wlog hle : i ≤ j generalizing i j with hswap
  · rw [products_symm m i j, mul_comm]
    exact hswap j i (le_of_not_ge hle)
  by_cases hi : p = i
  · rw [hi]
  by_cases hj : p = j
  · rw [hj, products_symm m j i, mul_comm]
  have e := equations hrot
  fin_cases p <;> fin_cases i <;> fin_cases j <;> first
    | exact absurd hle (by decide)
    | exact absurd rfl hi
    | exact absurd rfl hj
    | simp only [products, of_apply, cons_val, Fin.zero_eta, Fin.mk_one, Fin.reduceFinMk]
  · linear_combination - 2 * e.c00 - e.r00 + e.k11 + e.k22
  · linear_combination - e.c01 - e.c10 - e.r01 - e.k01
  · linear_combination - e.c02 - e.c20 - e.r02 - e.k02
  · linear_combination - 2 * e.c11 + e.r00 + e.r22 - e.k11
  · linear_combination - e.c12 - e.c21 - e.r12 - e.k12
  · linear_combination - 2 * e.c22 + e.r00 + e.r11 - e.k22
  · linear_combination - 2 * e.c00 - e.r00 + e.k11 + e.k22
  · linear_combination - e.c02 + e.c20 + e.r02 - e.k02
  · linear_combination e.c01 - e.c10 - e.r01 + e.k01
  · linear_combination 2 * e.c22 + e.r00 + e.r11 - e.k22
  · linear_combination - e.c12 - e.c21 + e.r12 + e.k12
  · linear_combination 2 * e.c11 + e.r00 + e.r22 - e.k11
  · linear_combination - 2 * e.c11 + e.r00 + e.r22 - e.k11
  · linear_combination e.c12 - e.c21 - e.r12 + e.k12
  · linear_combination e.c01 - e.c10 + e.r01 - e.k01
  · linear_combination 2 * e.c22 + e.r00 + e.r11 - e.k22
  · linear_combination - e.c02 - e.c20 + e.r02 + e.k02
  · linear_combination 2 * e.c00 - e.r00 + e.k11 + e.k22
  · linear_combination - 2 * e.c22 + e.r00 + e.r11 - e.k22
  · linear_combination e.c12 - e.c21 + e.r12 - e.k12
  · linear_combination - e.c02 + e.c20 - e.r02 + e.k02
  · linear_combination 2 * e.c11 + e.r00 + e.r22 - e.k11
  · linear_combination - e.c01 - e.c10 + e.r01 + e.k01
  · linear_combination 2 * e.c00 - e.r00 + e.k11 + e.k22

/-- The motion `p ↦ a p + t` in homogeneous coordinates. -/
def homogeneous (a : Matrix (Fin 3) (Fin 3) R) (t : Fin 3 → R) : Matrix (Fin 4) (Fin 4) R :=
  !![a 0 0, a 0 1, a 0 2, t 0; a 1 0, a 1 1, a 1 2, t 1; a 2 0, a 2 1, a 2 2, t 2; 0, 0, 0, 1]

theorem homogeneous_mul (a b : Matrix (Fin 3) (Fin 3) R) (s t : Fin 3 → R) :
    homogeneous a s * homogeneous b t = homogeneous (a * b) (a *ᵥ t + s) := by
  ext i j
  fin_cases i <;> fin_cases j <;>
    simp [homogeneous, mul_apply, mulVec, dotProduct, Fin.sum_univ_three, Fin.sum_univ_four]

theorem homogeneous_one : homogeneous (1 : Matrix (Fin 3) (Fin 3) R) 0 = 1 := by
  ext i j
  fin_cases i <;> fin_cases j <;> simp [homogeneous]

end Ring

section Field

variable {F : Type*} [Field F] [CharZero F] {m : Matrix (Fin 3) (Fin 3) F}

theorem row_products (hrot : m ∈ specialOrthogonalGroup (Fin 3) F) {p : Fin 4} {s : F}
    (hsca : s * s = 4 * products m p p) (hnon : s ≠ 0) (i j : Fin 4) :
    products m p i / s * (products m p j / s) = products m i j / 4 := by
  have hpivot : products m p p ≠ 0 := by
    intro hzero
    rw [hzero, mul_zero] at hsca
    exact hnon (mul_self_eq_zero.mp hsca)
  calc
    products m p i / s * (products m p j / s)
        = products m p p * products m i j / (4 * products m p p) := by
      rw [div_mul_div_comm, products_minor hrot, hsca]
    _ = products m i j / 4 := by
      field_simp

theorem quaternionMatrix_row (hrot : m ∈ specialOrthogonalGroup (Fin 3) F) {p : Fin 4}
    {s : F} (hsca : s * s = 4 * products m p p) (hnon : s ≠ 0) :
    quaternionMatrix (products m p 0 / s) (products m p 1 / s) (products m p 2 / s)
      (products m p 3 / s) = m := by
  simp only [quaternionMatrix, row_products hrot hsca hnon]
  ext i j
  fin_cases i <;> fin_cases j <;> simp [products] <;> ring

theorem norm_row (hrot : m ∈ specialOrthogonalGroup (Fin 3) F) {p : Fin 4} {s : F}
    (hsca : s * s = 4 * products m p p) (hnon : s ≠ 0) :
    products m p 1 / s * (products m p 1 / s) + products m p 2 / s * (products m p 2 / s) +
      products m p 3 / s * (products m p 3 / s) + products m p 0 / s * (products m p 0 / s) =
      1 := by
  simp only [row_products hrot hsca hnon]
  simp only [products, of_apply, cons_val]
  ring

end Field

end AukiSdk.Foundation.Rotation
