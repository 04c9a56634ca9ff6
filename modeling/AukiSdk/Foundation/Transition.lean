import Mathlib

/-!
# Runs of labelled transition systems

A run records one label per step, oldest first.
-/

namespace AukiSdk.Foundation.Transition

open List

variable {State Label : Type*}

/-- `Run step initial history state`: some run from `initial` records exactly
`history` and ends in `state`. -/
inductive Run (step : List Label → State → Label → State → Prop) (initial : State) :
    List Label → State → Prop where
  | start : Run step initial [] initial
  | extend {history : List Label} {state : State} {label : Label} {next : State} :
      Run step initial history state → step history state label next →
      Run step initial (history ++ [label]) next

variable {step : List Label → State → Label → State → Prop} {initial : State}

/-- What holds at the start and survives every step holds at the end of every run. -/
theorem Run.invariant (property : List Label → State → Prop) (hbeg : property [] initial)
    (hs : ∀ history state label next, property history state →
      step history state label next → property (history ++ [label]) next)
    {history : List Label} {state : State} (hrun : Run step initial history state) :
    property history state := by
  induction hrun with
  | start => exact hbeg
  | extend _ hlast ih => exact hs _ _ _ _ ih hlast

theorem Run.eq_of_nil {state : State} (hrun : Run step initial [] state) :
    state = initial := by
  generalize hhist : [] = history at hrun
  cases hrun with
  | start => rfl
  | extend _ _ => simp at hhist

theorem Run.step_at {before after : List Label} {label : Label} {state : State}
    (hrun : Run step initial (before ++ label :: after) state) :
    ∃ source target, Run step initial before source ∧ step before source label target ∧
      Run step initial (before ++ [label]) target := by
  induction after using List.reverseRecOn generalizing state with
  | nil =>
    generalize hhist : before ++ [label] = history at hrun
    cases hrun with
    | start => simp at hhist
    | extend hini hlast =>
      obtain ⟨rfl, hlbl⟩ := append_inj' hhist (by simp)
      cases singleton_inj.mp hlbl
      exact ⟨_, _, hini, hlast, hini.extend hlast⟩
  | append_singleton after last ih =>
    generalize hhist : before ++ label :: (after ++ [last]) = history at hrun
    cases hrun with
    | start => simp at hhist
    | @extend earlier _ _ _ hini _ =>
      have hinit : before ++ label :: after = earlier := by
        rw [← cons_append, ← append_assoc] at hhist
        exact (append_inj' hhist (by simp)).1
      rw [← hinit] at hini
      exact ih hini

theorem Run.last {history : List Label} {label : Label} {state : State}
    (hrun : Run step initial (history ++ [label]) state) :
    ∃ source, Run step initial history source ∧ step history source label state := by
  generalize hwhl : history ++ [label] = whole at hrun
  cases hrun with
  | start => simp at hwhl
  | extend hini hlast =>
    obtain ⟨rfl, hlbl⟩ := append_inj' hwhl (by simp)
    cases singleton_inj.mp hlbl
    exact ⟨_, hini, hlast⟩

/-- A preorder that every admitted step follows relates the ends of a segment. -/
theorem Run.segment (relation : State → State → Prop) (admitted : Label → Prop)
    (hrefl : ∀ state, relation state state)
    (htrn : ∀ first second third, relation first second → relation second third →
      relation first third)
    (hs : ∀ history source label target, Run step initial history source →
      step history source label target → admitted label → relation source target)
    {before middle : List Label} {state : State}
    (hrun : Run step initial (before ++ middle) state)
    (hadm : ∀ label ∈ middle, admitted label) :
    ∃ source, Run step initial before source ∧ relation source state := by
  induction middle using List.reverseRecOn generalizing state with
  | nil =>
    rw [append_nil] at hrun
    exact ⟨state, hrun, hrefl state⟩
  | append_singleton middle label ih =>
    rw [← append_assoc] at hrun
    rw [forall_mem_append] at hadm
    obtain ⟨previous, hprev, hlast⟩ := hrun.last
    obtain ⟨source, hsrc, hrel⟩ := ih hprev hadm.1
    refine ⟨source, hsrc, htrn _ _ _ hrel ?_⟩
    exact hs _ _ _ _ hprev hlast (hadm.2 label (by simp))

end AukiSdk.Foundation.Transition
