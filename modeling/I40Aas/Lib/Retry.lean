import Mathlib.Data.List.Basic

/-!
Calls that are made again after a failure, up to some number of times. A run makes a call
for each outcome until the first success or until the budget is used up.
-/

namespace I40Aas.Lib.Retry

variable {ε α : Type*}

/-- The outcomes of the calls from the one at `n` on, if it is repeated up to `budget`
times. -/
def calls (outcome : ℕ → Except ε α) : ℕ → ℕ → List (Except ε α)
  | 0, n => [outcome n]
  | budget + 1, n =>
      match outcome n with
      | .ok a => [.ok a]
      | .error e => .error e :: calls outcome budget (n + 1)

variable {outcome : ℕ → Except ε α} {budget n : ℕ}

theorem calls_of_ok {a : α} (h : outcome n = .ok a) :
    calls outcome budget n = [.ok a] := by
  cases budget <;> simp [calls, h]

theorem calls_of_error {e : ε} (h : outcome n = .error e) :
    calls outcome (budget + 1) n = .error e :: calls outcome budget (n + 1) := by
  simp [calls, h]

theorem length_calls_le : (calls outcome budget n).length ≤ budget + 1 := by
  induction budget generalizing n with
  | zero => simp [calls]
  | succ budget ih =>
      cases h : outcome n with
      | ok a => simp [calls_of_ok h]
      | error e =>
          rw [calls_of_error h, List.length_cons]
          exact Nat.succ_le_succ ih

theorem eq_nil_of_singleton {β : Type*} {front rest : List β} {x y : β}
    (h : [x] = front ++ y :: rest) : rest = [] := by
  have hlength := congrArg List.length h
  simp only [List.length_append, List.length_cons, List.length_nil] at hlength
  exact List.eq_nil_of_length_eq_zero (by omega)

/-- A success is the last call. -/
theorem eq_nil_of_calls {front rest : List (Except ε α)} {a : α}
    (h : calls outcome budget n = front ++ .ok a :: rest) : rest = [] := by
  induction budget generalizing n front with
  | zero => exact eq_nil_of_singleton h
  | succ budget ih =>
      cases hn : outcome n with
      | ok a' =>
          rw [calls_of_ok hn] at h
          exact eq_nil_of_singleton h
      | error e =>
          rw [calls_of_error hn] at h
          cases front with
          | nil => cases h
          | cons _ front => exact ih (List.cons.inj h).2

/-- The last of the calls is only made if all before it fail. -/
theorem length_calls_le_iff :
    (calls outcome budget n).length ≤ budget ↔ ∃ k < budget, ∃ a, outcome (n + k) = .ok a := by
  induction budget generalizing n with
  | zero => simp [calls]
  | succ budget ih =>
      cases h : outcome n with
      | ok a =>
          rw [calls_of_ok h]
          exact iff_of_true (Nat.succ_le_succ (Nat.zero_le _)) ⟨0, Nat.succ_pos _, a, h⟩
      | error e =>
          rw [calls_of_error h, List.length_cons, Nat.succ_le_succ_iff, ih]
          constructor
          · rintro ⟨k, hk, a, ha⟩
            refine ⟨k + 1, Nat.succ_lt_succ hk, a, ?_⟩
            rwa [show n + (k + 1) = n + 1 + k by omega]
          · rintro ⟨k, hk, a, ha⟩
            cases k with
            | zero =>
                rw [Nat.add_zero, h] at ha
                cases ha
            | succ k =>
                refine ⟨k, Nat.lt_of_succ_lt_succ hk, a, ?_⟩
                rwa [show n + 1 + k = n + (k + 1) by omega]

end I40Aas.Lib.Retry
