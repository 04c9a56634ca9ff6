import Mathlib.Data.List.Induction

/-!
# Guarded runs

Runs of a partial step function, and their induction rule.
-/

namespace AukiSdk.Foundation

open List

variable {S A : Type*}

variable (step : S → A → Option S)

/-- The state after some steps, if they can be taken. -/
def runSteps (start : S) (actions : List A) : Option S :=
  actions.foldlM step start

theorem runSteps_cons {step : S → A → Option S} {start next : S} {action : A}
    (hs : step start action = some next) (rest : List A) :
    runSteps step start (action :: rest) = runSteps step next rest := by
  rw [runSteps, foldlM_cons, hs]
  rfl

theorem runSteps_concat (start : S) (actions : List A) (action : A) :
    runSteps step start (actions ++ [action]) =
      (runSteps step start actions).bind (step · action) := by
  simp [runSteps, foldlM_append]

theorem runSteps_append (start : S) (before after : List A) :
    runSteps step start (before ++ after) =
      (runSteps step start before).bind fun state => runSteps step state after := by
  simp [runSteps, foldlM_append]

/-- Every step of a run meets `guard`. -/
def GuardedRun (start : S) (guard : S → A → Prop) (actions : List A) : Prop :=
  ∀ before action after state, actions = before ++ action :: after →
    runSteps step start before = some state → guard state action

theorem GuardedRun.nil (start : S) (guard : S → A → Prop) : GuardedRun step start guard [] := by
  intro before action after state hsp
  cases before <;> cases hsp

theorem GuardedRun.cons {step : S → A → Option S} {start : S} {guard : S → A → Prop} {action : A}
    {rest : List A} (hfst : guard start action)
    (hrest : ∀ next, step start action = some next → GuardedRun step next guard rest) :
    GuardedRun step start guard (action :: rest) := by
  intro before found after state hsp hsta
  cases before with
  | nil =>
    cases hsp
    cases hsta
    exact hfst
  | cons head before =>
    cases hsp
    rw [runSteps, foldlM_cons] at hsta
    obtain ⟨next, hn, hsta⟩ := Option.bind_eq_some_iff.mp hsta
    exact hrest next hn before found after state rfl hsta

theorem guardedRun_of_forall {step : S → A → Option S} {start : S} {guard : A → Prop}
    {actions : List A} (hact : ∀ action ∈ actions, guard action) :
    GuardedRun step start (fun _ action => guard action) actions := by
  intro before action after state hsp _
  exact hact action (by simp [hsp])

/-- Every step of a run passes `test`. -/
def testedRun (step : S → A → Option S) (test : S → A → Bool) : S → List A → Bool
  | _, [] => true
  | start, action :: rest =>
    test start action &&
      match step start action with
      | none => true
      | some next => testedRun step test next rest

theorem guardedRun_of_tested {step : S → A → Option S} {test : S → A → Bool}
    {guard : S → A → Prop} (htest : ∀ state action, test state action = true → guard state action)
    {start : S} {actions : List A} (htes : testedRun step test start actions = true) :
    GuardedRun step start guard actions := by
  induction actions generalizing start with
  | nil => exact GuardedRun.nil step start guard
  | cons action rest ih =>
    rw [testedRun, Bool.and_eq_true] at htes
    apply GuardedRun.cons (htest start action htes.1)
    intro next hn
    rw [hn] at htes
    exact ih htes.2

theorem GuardedRun.suffix {step : S → A → Option S} {start : S} {guard : S → A → Prop}
    {before after : List A} (hgrd : GuardedRun step start guard (before ++ after)) {state : S}
    (hsta : runSteps step start before = some state) : GuardedRun step state guard after := by
  intro first action rest found hsp hf
  apply hgrd (before ++ first) action rest found
  · rw [hsp, append_assoc]
  · rw [runSteps_append, hsta]
    exact hf

theorem GuardedRun.initial {step : S → A → Option S} {start : S} {guard : S → A → Prop}
    {before after : List A} (hgrd : GuardedRun step start guard (before ++ after)) :
    GuardedRun step start guard before := by
  intro first action rest found hsp hf
  apply hgrd first action (rest ++ after) found _ hf
  rw [hsp, append_assoc, cons_append]

theorem invariant_of_guardedRun {step : S → A → Option S} {start : S} {guard : S → A → Prop}
    {invariant : S → Prop} (hbeg : invariant start)
    (hs : ∀ state action next, invariant state → guard state action →
      step state action = some next → invariant next)
    {actions : List A} (hgrd : GuardedRun step start guard actions) {last : S}
    (hrun : runSteps step start actions = some last) : invariant last := by
  induction actions using List.reverseRecOn generalizing last with
  | nil =>
    cases hrun
    exact hbeg
  | append_singleton actions action ih =>
    rw [runSteps_concat, Option.bind_eq_some_iff] at hrun
    obtain ⟨state, hsta, hlast⟩ := hrun
    have hpre : GuardedRun step start guard actions := by
      intro before found after state heq hf
      apply hgrd before found (after ++ [action]) state _ hf
      rw [heq, append_assoc, cons_append]
    exact hs state action last (ih hpre hsta)
      (hgrd actions action [] state rfl hsta) hlast

theorem invariant_of_run {step : S → A → Option S} {start : S} {invariant : S → Prop}
    (hbeg : invariant start)
    (hs : ∀ state action next, invariant state → step state action = some next → invariant next)
    {actions : List A} {last : S} (hrun : runSteps step start actions = some last) :
    invariant last := by
  have hgrd : GuardedRun step start (fun _ _ => True) actions := fun _ _ _ _ _ _ => trivial
  apply invariant_of_guardedRun hbeg _ hgrd hrun
  intro state action next hsta _ hn
  exact hs state action next hsta hn

theorem concat_eq_append_cons {list before after : List A} {last found : A}
    (hsp : list ++ [last] = before ++ found :: after) :
    (after = [] ∧ found = last ∧ before = list) ∨
      ∃ rest, after = rest ++ [last] ∧ list = before ++ found :: rest := by
  induction after using List.reverseRecOn with
  | nil =>
    obtain ⟨hlist, hlast⟩ := append_inj' hsp rfl
    exact .inl ⟨rfl, (singleton_inj.mp hlast).symm, hlist.symm⟩
  | append_singleton rest final ih =>
    rw [← cons_append, ← append_assoc] at hsp
    obtain ⟨hlist, hlast⟩ := append_inj' hsp rfl
    exact .inr ⟨rest, by rw [singleton_inj.mp hlast], hlist⟩

end AukiSdk.Foundation
