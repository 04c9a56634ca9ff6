import Mathlib.Data.List.Basic

/-!
# Paged requests

A loop that sends one request a turn and either goes on with a new state or ends.
-/

namespace AukiSdk.Foundation.Paging

variable {σ ε ρ : Type*}

/-- At most `turns` turns after `sent` requests, with the requests sent by the end. -/
def run (turn : ℕ → σ → Except ε (σ ⊕ ρ)) :
    (turns : ℕ) → (sent : ℕ) → σ → Option (Except ε ρ) × ℕ
  | 0, sent, _ => (none, sent)
  | turns + 1, sent, state =>
    match turn sent state with
    | .error error => (some (.error error), sent + 1)
    | .ok (.inr result) => (some (.ok result), sent + 1)
    | .ok (.inl next) => run turn turns (sent + 1) next

/-- What a loop keeps from turn to turn. -/
def Keeps (turn : ℕ → σ → Except ε (σ ⊕ ρ)) (Inv : ℕ → σ → Prop) : Prop :=
  ∀ sent state next, Inv sent state → turn sent state = .ok (.inl next) → Inv (sent + 1) next

variable {turn : ℕ → σ → Except ε (σ ⊕ ρ)} {Inv : ℕ → σ → Prop}

theorem run_result (hkps : Keeps turn Inv) {result : Except ε ρ} {requests : ℕ} :
    ∀ {turns sent : ℕ} {state : σ}, Inv sent state →
      run turn turns sent state = (some result, requests) →
      ∃ last final, requests = last + 1 ∧ sent ≤ last ∧ last < sent + turns ∧
        Inv last final ∧ turn last final = result.map .inr := by
  intro turns
  induction turns with
  | zero =>
    intro sent state _ hrun
    cases hrun
  | succ turns ih =>
    intro sent state hinv hrun
    rw [run] at hrun
    cases hturn : turn sent state with
    | error error =>
      rw [hturn] at hrun
      cases hrun
      exact ⟨sent, state, rfl, Nat.le_refl sent, by omega, hinv, hturn⟩
    | ok outcome =>
      rw [hturn] at hrun
      cases outcome with
      | inr found =>
        cases hrun
        exact ⟨sent, state, rfl, Nat.le_refl sent, by omega, hinv, hturn⟩
      | inl next =>
        obtain ⟨last, final, hlast, hle, hlt, hfin⟩ := ih (hkps sent state next hinv hturn) hrun
        exact ⟨last, final, hlast, by omega, by omega, hfin⟩

theorem run_exhausted (hkps : Keeps turn Inv) :
    ∀ {turns sent : ℕ} {state : σ}, Inv sent state → (run turn turns sent state).1 = none →
      ∃ final, Inv (sent + turns) final ∧ run turn turns sent state = (none, sent + turns) := by
  intro turns
  induction turns with
  | zero =>
    intro sent state hinv _
    exact ⟨state, hinv, rfl⟩
  | succ turns ih =>
    intro sent state hinv hrun
    rw [run] at hrun ⊢
    cases hturn : turn sent state with
    | error error =>
      rw [hturn] at hrun
      cases hrun
    | ok outcome =>
      rw [hturn] at hrun
      cases outcome with
      | inr found => cases hrun
      | inl next =>
        obtain ⟨final, hfin, heq⟩ := ih (hkps sent state next hinv hturn) hrun
        have hsum : sent + (turns + 1) = sent + 1 + turns := by omega
        rw [hsum]
        exact ⟨final, hfin, heq⟩

/-- A loop with bounded requests has a result, and more turns change nothing. -/
theorem run_terminates (hkps : Keeps turn Inv) {bound : ℕ}
    (hbnd : ∀ sent state, Inv sent state → sent < bound) :
    ∀ {turns sent : ℕ} {state : σ}, Inv sent state → bound ≤ sent + turns →
      ∃ result requests, requests ≤ bound ∧
        ∀ extra, run turn (turns + extra) sent state = (some result, requests) := by
  intro turns
  induction turns with
  | zero =>
    intro sent state hinv hle
    have hlt := hbnd sent state hinv
    omega
  | succ turns ih =>
    intro sent state hinv hle
    have hlt := hbnd sent state hinv
    have hsucc : ∀ extra, turns + 1 + extra = turns + extra + 1 := by omega
    simp only [hsucc, run]
    cases turn_eq : turn sent state with
    | error error => exact ⟨.error error, sent + 1, hlt, fun extra => rfl⟩
    | ok outcome =>
      cases outcome with
      | inr found => exact ⟨.ok found, sent + 1, hlt, fun extra => rfl⟩
      | inl next => exact ih (hkps sent state next hinv turn_eq) (by omega)

end AukiSdk.Foundation.Paging
