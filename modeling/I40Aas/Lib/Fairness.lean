import Mathlib.Order.Basic
import I40Aas.Lib.Execution

/-!
Infinite schedules. A label that is not enabled when its turn comes is skipped. What has to
happen in the end is shown with a rank that no step raises and that the steps of a fair kind
lower.
-/

namespace I40Aas.Lib

variable {σ ℓ : Type*}

/-- The state after the first labels of the schedule. -/
def follow (step : σ → ℓ → Option σ) (s : σ) (sched : ℕ → ℓ) : ℕ → σ
  | 0 => s
  | n + 1 => (step (follow step s sched n) (sched n)).getD (follow step s sched n)

variable {step : σ → ℓ → Option σ} {s : σ} {sched : ℕ → ℓ} {I P goal : σ → Prop}

/-- The invariant rule for an infinite schedule, with what its labels are known to meet. -/
theorem follow_of_invariant {ok : σ → ℓ → Prop}
    (hstep : ∀ s l s', I s → ok s l → step s l = some s' → I s') (hs : I s)
    (hok : ∀ n, ok (follow step s sched n) (sched n)) (n : ℕ) : I (follow step s sched n) := by
  induction n with
  | zero => exact hs
  | succ n ih =>
      rw [follow]
      cases hnext : step (follow step s sched n) (sched n) with
      | none => exact ih
      | some s' => exact hstep _ _ _ ih (hok n) hnext

/-- What holds at some time and is kept by the labels from then on. -/
theorem follow_of_le {n m : ℕ} (hle : n ≤ m)
    (hstep : ∀ k ≥ n, ∀ s', P (follow step s sched k) →
      step (follow step s sched k) (sched k) = some s' → P s')
    (h : P (follow step s sched n)) : P (follow step s sched m) := by
  obtain ⟨k, rfl⟩ := Nat.exists_eq_add_of_le hle
  clear hle
  induction k with
  | zero => exact h
  | succ k ih =>
      rw [← Nat.add_assoc, follow]
      cases hnext : step (follow step s sched (n + k)) (sched (n + k)) with
      | none => exact ih
      | some s' => exact hstep (n + k) (Nat.le_add_right n k) s' ih hnext

/-- From `P` every step leads to the goal, or keeps `P` without raising the rank; the steps of
the fair kind lower it. -/
def Descends (step : σ → ℓ → Option σ) (ok : σ → ℓ → Prop) (fair : ℓ → Prop) (P goal : σ → Prop)
    (rank : σ → ℕ) : Prop :=
  ∀ s l, P s → ok s l →
    (∀ s', step s l = some s' → goal s' ∨
      P s' ∧ rank s' ≤ rank s ∧ (fair l → rank s' < rank s)) ∧
    (step s l = none → ¬ fair l)

/-- The rank is kept until a label of the fair kind has its turn. -/
theorem Descends.wait {ok : σ → ℓ → Prop} {fair : ℓ → Prop} {rank : σ → ℕ}
    (h : Descends step ok fair P goal rank) (hok : ∀ n, ok (follow step s sched n) (sched n))
    {n : ℕ} (hP : P (follow step s sched n)) (k : ℕ) :
    (∃ m ≥ n, goal (follow step s sched m)) ∨
      P (follow step s sched (n + k)) ∧
        rank (follow step s sched (n + k)) ≤ rank (follow step s sched n) := by
  induction k with
  | zero => exact .inr ⟨hP, Nat.le_refl _⟩
  | succ k ih =>
      rcases ih with hgoal | ⟨hP', hrank⟩
      · exact .inl hgoal
      · have hdescends := h _ (sched (n + k)) hP' (hok (n + k))
        rw [← Nat.add_assoc, follow]
        cases hnext : step (follow step s sched (n + k)) (sched (n + k)) with
        | none => exact .inr ⟨hP', hrank⟩
        | some s' =>
            rcases hdescends.1 s' hnext with hgoal | ⟨hP'', hrank', -⟩
            · refine .inl ⟨n + k + 1, by omega, ?_⟩
              rw [follow, hnext]
              exact hgoal
            · exact .inr ⟨hP'', Nat.le_trans hrank' hrank⟩

/-- The goal is reached if the fair kind of labels has its turn again and again. -/
theorem Descends.eventually {ok : σ → ℓ → Prop} {fair : ℓ → Prop} {rank : σ → ℕ}
    (h : Descends step ok fair P goal rank) (hok : ∀ n, ok (follow step s sched n) (sched n))
    (hfair : ∀ n, P (follow step s sched n) → ∃ m ≥ n, fair (sched m))
    {n : ℕ} (hP : P (follow step s sched n)) : ∃ m ≥ n, goal (follow step s sched m) := by
  induction hr : rank (follow step s sched n) using Nat.strongRecOn generalizing n with
  | ind r ih =>
      obtain ⟨m, hm, hturn⟩ := hfair n hP
      obtain ⟨k, rfl⟩ := Nat.exists_eq_add_of_le hm
      rcases h.wait hok hP k with hgoal | ⟨hP', hrank⟩
      · exact hgoal
      · have hdescends := h _ (sched (n + k)) hP' (hok (n + k))
        cases hnext : step (follow step s sched (n + k)) (sched (n + k)) with
        | none => exact absurd hturn (hdescends.2 hnext)
        | some s' =>
            have hstate : follow step s sched (n + k + 1) = s' := by
              rw [follow, hnext, Option.getD_some]
            rcases hdescends.1 s' hnext with hgoal | ⟨hP'', -, hlower⟩
            · refine ⟨n + k + 1, by omega, ?_⟩
              rw [hstate]
              exact hgoal
            · have hless : rank (follow step s sched (n + k + 1)) < r := by
                rw [hstate, ← hr]
                exact Nat.lt_of_lt_of_le (hlower hturn) hrank
              rw [← hstate] at hP''
              obtain ⟨m', hm', hgoal⟩ := ih _ hless hP'' rfl
              exact ⟨m', by omega, hgoal⟩

end I40Aas.Lib
