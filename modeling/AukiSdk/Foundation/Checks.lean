import Mathlib

/-!
# Sequences of checks

Validation code runs its checks in order and returns the first error.
-/

namespace AukiSdk.Foundation.Checks

open List

universe u

variable {ε α : Type*}

/-- One check. -/
def require (condition : Prop) [Decidable condition] (error : ε) : Except ε Unit :=
  if condition then .ok () else .error error

/-- The check of an optional value. -/
def optional (value : Option α) (check : α → Except ε Unit) : Except ε Unit :=
  match value with
  | none => .ok ()
  | some value => check value

/-- The first error of a sequence of checks. -/
def all : List (Except ε Unit) → Except ε Unit
  | [] => .ok ()
  | .error error :: _ => .error error
  | .ok () :: rest => all rest

/-- A value that must pass a check. -/
def checked (first : Except ε α) (check : α → Except ε Unit) : Except ε α :=
  match first with
  | .error error => .error error
  | .ok value =>
    match check value with
    | .error error => .error error
    | .ok () => .ok value

variable {check : α → Except ε Unit}

theorem checked_eq_ok {first : Except ε α} {value : α} :
    checked first check = .ok value ↔ first = .ok value ∧ check value = .ok () := by
  unfold checked
  cases first with
  | error error => simp
  | ok found =>
    dsimp only
    cases hchk : check found with
    | error error =>
      simp only [reduceCtorEq, Except.ok.injEq, false_iff, not_and]
      rintro rfl
      simp [hchk]
    | ok passed =>
      simp only [Except.ok.injEq, iff_self_and]
      rintro rfl
      exact hchk

@[simp]
theorem require_eq_ok {condition : Prop} [Decidable condition] {error : ε} :
    require condition error = .ok () ↔ condition := by
  unfold require
  split <;> simp_all

theorem bind_eq_ok {α β : Type u} {first : Except ε α} {next : α → Except ε β}
    {result : β} :
    first >>= next = .ok result ↔ ∃ value, first = .ok value ∧ next value = .ok result := by
  cases first with
  | error error => simp [bind, Except.bind]
  | ok value => simp [bind, Except.bind]

theorem mapM_eq_ok {α β : Type u} {f : α → Except ε β} {inputs : List α} {outputs : List β} :
    inputs.mapM f = .ok outputs ↔
      List.Forall₂ (fun input output => f input = .ok output) inputs outputs := by
  induction inputs generalizing outputs with
  | nil =>
    rw [mapM_nil, forall₂_nil_left_iff]
    exact ⟨fun h => (Except.ok.inj h).symm, fun h => congrArg Except.ok h.symm⟩
  | cons input inputs ih =>
    rw [mapM_cons, forall₂_cons_left_iff]
    constructor
    · intro h
      obtain ⟨output, hout, h⟩ := bind_eq_ok.mp h
      obtain ⟨rest, hrest, h⟩ := bind_eq_ok.mp h
      exact ⟨output, rest, hout, ih.mp hrest, (Except.ok.inj h).symm⟩
    · rintro ⟨output, rest, hout, hrest, rfl⟩
      rw [hout, ih.mpr hrest]
      rfl

theorem require_bind_eq_ok {A : Type} {condition : Prop} [Decidable condition] {error : ε}
    {next : Except ε A} {result : A} :
    (require condition error >>= fun _ => next) = .ok result ↔ condition ∧ next = .ok result := by
  rw [bind_eq_ok]
  constructor
  · rintro ⟨⟨⟩, hcon, hn⟩
    exact ⟨require_eq_ok.mp hcon, hn⟩
  · rintro ⟨hcon, hn⟩
    exact ⟨(), require_eq_ok.mpr hcon, hn⟩

theorem map_eq_ok {β : Type*} {first : Except ε α} {next : α → β} {result : β} :
    first.map next = .ok result ↔ ∃ value, first = .ok value ∧ next value = result := by
  cases first with
  | error error => simp [Except.map]
  | ok value => simp [Except.map]

theorem mapError_eq_ok {β : Type*} {ε' : Type*} {result : Except ε β} {change : ε → ε'}
    {value : β} : result.mapError change = .ok value ↔ result = .ok value := by
  cases result with
  | error error => simp [Except.mapError]
  | ok found => simp [Except.mapError]

theorem isOk_iff {result : Except ε α} :
    result.isOk = true ↔ ∃ value, result = .ok value := by
  cases result with
  | error error => simp [Except.isOk, Except.toBool]
  | ok value => simp [Except.isOk, Except.toBool]

@[simp]
theorem optional_eq_ok {value : Option α} :
    optional value check = .ok () ↔ ∀ value' ∈ value, check value' = .ok () := by
  cases value with
  | none => simp [optional]
  | some value => simp [optional]

theorem optional_imp {value : Option α} {check' : α → Except ε Unit}
    (himp : ∀ value, check value = .ok () → check' value = .ok ())
    (hchk : optional value check = .ok ()) : optional value check' = .ok () := by
  cases value with
  | none => rfl
  | some value => exact himp value hchk

theorem all_eq_ok {checks : List (Except ε Unit)} :
    all checks = .ok () ↔ ∀ check ∈ checks, check = .ok () := by
  induction checks with
  | nil => simp [all]
  | cons check rest ih =>
    cases check with
    | error error => simp [all]
    | ok passed => simp [all, ih]

theorem all_eq_ok_of_imp {checks checks' : List (Except ε Unit)}
    (hcks : List.Forall₂ (fun check check' => check = .ok () → check' = .ok ())
      checks checks') (hall : all checks = .ok ()) : all checks' = .ok () := by
  induction hcks with
  | nil => rfl
  | @cons check check' rest rest' himp _ ih =>
    rw [all_eq_ok, forall_mem_cons] at hall
    rw [himp hall.1]
    exact ih (all_eq_ok.mpr hall.2)

section Distinct

variable {κ : Type*} [DecidableEq κ]

/-- Each value is checked, then its key must not have been seen, then it is
checked further. -/
def distinct (key : α → κ) (before : α → Except ε Unit) (duplicate : α → ε)
    (after : α → Except ε Unit) : List κ → List α → Except ε Unit
  | _, [] => .ok ()
  | seen, value :: rest =>
    all [before value, require (key value ∉ seen) (duplicate value), after value,
      distinct key before duplicate after (key value :: seen) rest]

theorem distinct_eq_ok {key : α → κ} {before : α → Except ε Unit} {duplicate : α → ε}
    {after : α → Except ε Unit} {seen : List κ} {values : List α} :
    distinct key before duplicate after seen values = .ok () ↔
      (∀ value ∈ values, before value = .ok () ∧ after value = .ok () ∧ key value ∉ seen) ∧
        (values.map key).Nodup := by
  induction values generalizing seen with
  | nil => simp [distinct]
  | cons value rest ih =>
    rw [distinct, all_eq_ok]
    simp only [forall_mem_cons, not_mem_nil, IsEmpty.forall_iff, implies_true,
      and_true, require_eq_ok, ih, map_cons, nodup_cons]
    simp only [mem_cons, not_or, mem_map, not_exists, not_and]
    constructor
    · rintro ⟨hpre, hseen, haft, hrest, hnd⟩
      exact ⟨⟨⟨hpre, haft, hseen⟩, fun other ho =>
        ⟨(hrest other ho).1, (hrest other ho).2.1, (hrest other ho).2.2.2⟩⟩,
        fun other ho => (hrest other ho).2.2.1, hnd⟩
    · rintro ⟨⟨⟨hpre, haft, hseen⟩, hrest⟩, hfst, hnd⟩
      exact ⟨hpre, hseen, haft, fun other ho =>
        ⟨(hrest other ho).1, (hrest other ho).2.1, hfst other ho, (hrest other ho).2.2⟩, hnd⟩

end Distinct

end AukiSdk.Foundation.Checks
