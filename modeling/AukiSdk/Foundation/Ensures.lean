import Mathlib.Data.List.Forall2

/-!
# Runs that avoid a failure

What the value of a fallible run satisfies, and how it does not fail.
-/

namespace AukiSdk.Foundation

universe u

variable {ε α : Type*}

/-- A run that does not end in `failure`, with what its value satisfies. -/
structure Ensures (failure : ε) (run : Except ε α) (post : α → Prop) : Prop where
  avoids : run ≠ .error failure
  value : ∀ value, run = .ok value → post value

variable {A B : Type u} {failure error : ε} {run : Except ε A} {post : A → Prop}

theorem Ensures.spec (hrun : Ensures failure run post) :
    run ≠ .error failure ∧ ∀ value, run = .ok value → post value :=
  ⟨hrun.avoids, hrun.value⟩

theorem Ensures.of_ok {value : A} (hpost : post value) : Ensures failure (.ok value) post where
  avoids := nofun
  value := by
    rintro _ ⟨⟩
    exact hpost

theorem Ensures.of_error (hne : error ≠ failure) : Ensures failure (.error error) post where
  avoids heq := hne (Except.error.inj heq)
  value := nofun

theorem Ensures.imp {post' : A → Prop} (hrun : Ensures failure run post)
    (himp : ∀ value, post value → post' value) : Ensures failure run post' where
  avoids := hrun.avoids
  value value hres := himp value (hrun.value value hres)

theorem Ensures.bind {next : A → Except ε B} {post' : B → Prop} (hrun : Ensures failure run post)
    (hnext : ∀ value, post value → Ensures failure (next value) post') :
    Ensures failure (run >>= next) post' := by
  cases hres : run with
  | error error => exact .of_error fun heq => hrun.avoids (heq ▸ hres)
  | ok value => exact hnext value (hrun.value value hres)

theorem Ensures.ite {condition : Prop} [Decidable condition] {left right : Except ε A}
    (hleft : condition → Ensures failure left post)
    (hright : ¬ condition → Ensures failure right post) :
    Ensures failure (if condition then left else right) post := by
  split
  next hcon => exact hleft hcon
  next hcon => exact hright hcon

theorem Ensures.mapM {f : A → Except ε B} {inputs : List A} {post : A → B → Prop}
    (heach : ∀ input, Ensures failure (f input) (post input)) :
    Ensures failure (inputs.mapM f) (List.Forall₂ post inputs) := by
  induction inputs with
  | nil => exact .of_ok .nil
  | cons input inputs ih =>
    rw [List.mapM_cons]
    exact (heach input).bind fun output hout =>
      ih.bind fun outputs houts => .of_ok (.cons hout houts)

end AukiSdk.Foundation
