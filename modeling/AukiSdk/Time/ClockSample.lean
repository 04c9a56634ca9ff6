import Mathlib

/-!
# Clock samples

`tick` reads one clock twice around a reading of another.
-/

namespace AukiSdk.Time

def i64Min : ℤ := Int64.minValue.toInt

def i64Max : ℤ := Int64.maxValue.toInt

def u32Max : ℕ := 2 ^ 32 - 1

variable (value : ℤ)

/-- The values of an `i64`. -/
def InI64 : Prop := i64Min ≤ value ∧ value ≤ i64Max

instance (value : ℤ) : Decidable (InI64 value) := inferInstanceAs (Decidable (_ ∧ _))

/-- The value, unless the operation that computes it overflows. -/
def checked : Option ℤ := if InI64 value then some value else none

/-- The end of a saturating operation. -/
def saturate : ℤ := max i64Min (min i64Max value)

/-- The three readings that `tick` takes of a `Clock`, in order. -/
structure Clock where
  readFromNs : Int64
  readToNs : Int64
  readFromAgainNs : Int64

structure TimeTransformEntry where
  offsetNs : ℤ
  uncertaintyNs : ℕ
  deriving DecidableEq

/-- The division truncates toward zero. -/
def midpoint (a b : ℤ) : Option ℤ := do
  let span ← checked (b - a)
  checked (a + span.tdiv 2)

variable (clock : Clock)

def tick : Option (ℤ × TimeTransformEntry) := do
  let m1 := clock.readFromNs.toInt
  let r := clock.readToNs.toInt
  let m2 := clock.readFromAgainNs.toInt
  let timestampNs ← midpoint m1 m2
  let uncertaintyNs := (max (saturate (m2 - m1)) 0).toNat
  some (timestampNs, {
    offsetNs := saturate (r - timestampNs)
    uncertaintyNs := if uncertaintyNs ≤ u32Max then uncertaintyNs else u32Max })

/-- `TimeTransform::convert_ns` with an offset. -/
def convertNs (offsetNs timestampNs : ℤ) : Option ℤ := checked (timestampNs + offsetNs)

theorem inI64_toInt (reading : Int64) : InI64 reading.toInt :=
  ⟨Int64.minValue_le_toInt reading, Int64.toInt_le reading⟩

theorem saturate_of_inI64 {value : ℤ} (hval : InI64 value) : saturate value = value := by
  rw [saturate, min_eq_right hval.2, max_eq_right hval.1]

theorem checked_of_inI64 {value : ℤ} (hval : InI64 value) : checked value = some value :=
  if_pos hval

theorem half_between {a b : ℤ} : min a b ≤ a + (b - a).tdiv 2 ∧ a + (b - a).tdiv 2 ≤ max a b := by
  rcases le_total a b with hle | hle
  · rw [Int.tdiv_eq_ediv_of_nonneg (by omega), min_eq_left hle, max_eq_right hle]
    omega
  · have hneg : (b - a).tdiv 2 = -((a - b) / 2) := by
      rw [← Int.tdiv_eq_ediv_of_nonneg (by omega), ← Int.neg_tdiv, neg_sub]
    rw [hneg, min_eq_right hle, max_eq_left hle]
    omega

theorem midpoint_eq (a b : Int64) : midpoint a.toInt b.toInt =
      if InI64 (b.toInt - a.toInt) then some (a.toInt + (b.toInt - a.toInt).tdiv 2) else none := by
  unfold midpoint
  by_cases hspan : InI64 (b.toInt - a.toInt)
  · have hbet := half_between (a := a.toInt) (b := b.toInt)
    have hsum : InI64 (a.toInt + (b.toInt - a.toInt).tdiv 2) :=
      ⟨le_trans (le_min (inI64_toInt a).1 (inI64_toInt b).1) hbet.1,
        le_trans hbet.2 (max_le (inI64_toInt a).2 (inI64_toInt b).2)⟩
    rw [checked_of_inI64 hspan, if_pos hspan]
    exact checked_of_inI64 hsum
  · rw [checked, if_neg hspan, if_neg hspan]
    rfl

def SampleExact : Prop :=
  ∃ timestampNs entry, tick clock = some (timestampNs, entry) ∧
    min clock.readFromNs.toInt clock.readFromAgainNs.toInt ≤ timestampNs ∧
    timestampNs ≤ max clock.readFromNs.toInt clock.readFromAgainNs.toInt ∧
    entry.offsetNs = saturate (clock.readToNs.toInt - timestampNs) ∧
    (clock.readFromNs.toInt ≤ clock.readFromAgainNs.toInt →
      clock.readFromAgainNs.toInt - clock.readFromNs.toInt ≤ u32Max →
      InI64 (clock.readToNs.toInt - timestampNs) →
        convertNs entry.offsetNs timestampNs = some clock.readToNs.toInt ∧
          ∀ instant ∈ Set.Icc clock.readFromNs.toInt clock.readFromAgainNs.toInt,
            |entry.offsetNs - (clock.readToNs.toInt - instant)| ≤
              ((entry.uncertaintyNs + 1) / 2 : ℕ))

/-- A sample is exact if and only if its readings are less than `2^63` apart. -/
theorem sample_exact_iff : SampleExact clock ↔
      InI64 (clock.readFromAgainNs.toInt - clock.readFromNs.toInt) := by
  obtain ⟨first, reading, again⟩ := clock
  have hmid := midpoint_eq first again
  constructor
  · rintro ⟨timestampNs, entry, htick, -⟩
    by_contra hspan
    rw [if_neg hspan] at hmid
    rw [tick, hmid] at htick
    cases htick
  · intro hspan
    rw [if_pos hspan] at hmid
    have hbetween := half_between (a := first.toInt) (b := again.toInt)
    refine ⟨_, _, by rw [tick, hmid]; rfl, hbetween.1, hbetween.2, rfl, ?_⟩
    intro hle hfits hoffset
    dsimp only at hle hfits hoffset ⊢
    rw [saturate_of_inI64 hoffset, saturate_of_inI64 hspan]
    constructor
    · rw [convertNs, add_sub_cancel]
      exact checked_of_inI64 (inI64_toInt reading)
    · rintro instant ⟨hfrom, hto⟩
      have hnonneg : 0 ≤ again.toInt - first.toInt := sub_nonneg.mpr hle
      have hsmall : (again.toInt - first.toInt).toNat ≤ u32Max := by omega
      rw [Int.tdiv_eq_ediv_of_nonneg hnonneg, max_eq_left hnonneg, if_pos hsmall, abs_le]
      omega

/-- The difference of the extremes overflows. -/
theorem midpoint_overflows : ¬ SampleExact ⟨Int64.minValue, 0, Int64.maxValue⟩ := by
  rintro ⟨timestampNs, entry, htick, -⟩
  cases htick

end AukiSdk.Time
