import Mathlib.Data.List.Basic

/-!
Two machines that take the same inputs and answer each of them. If a relation between
their states is kept by every input, and related states answer alike, then the machines
answer alike whatever is asked of them.
-/

namespace I40Aas.Lib

variable {σ τ α β γ : Type*}

/-- The answers to the inputs in their order, and the state they lead to. -/
def answers (step : σ → α → β × σ) : σ → List α → List β × σ
  | s, [] => ([], s)
  | s, a :: as =>
      let rest := answers step (step s a).2 as
      ((step s a).1 :: rest.1, rest.2)

/-- To each input belongs a pair of answers that agree. -/
inductive Alike (agree : α → β → γ → Prop) : List α → List β → List γ → Prop
  | nil : Alike agree [] [] []
  | cons {a : α} {b : β} {c : γ} {as : List α} {bs : List β} {cs : List γ} :
      agree a b c → Alike agree as bs cs → Alike agree (a :: as) (b :: bs) (c :: cs)

/-- The rule of simulation. -/
theorem alike_of_simulation {step : σ → α → β × σ} {step' : τ → α → γ × τ}
    {agree : α → β → γ → Prop} {R : σ → τ → Prop}
    (hstep : ∀ s t a, R s t →
      agree a (step s a).1 (step' t a).1 ∧ R (step s a).2 (step' t a).2)
    {s : σ} {t : τ} (h : R s t) (as : List α) :
    Alike agree as (answers step s as).1 (answers step' t as).1 ∧
      R (answers step s as).2 (answers step' t as).2 := by
  induction as generalizing s t with
  | nil => exact ⟨.nil, h⟩
  | cons a as ih =>
      obtain ⟨hagree, hnext⟩ := hstep s t a h
      obtain ⟨halike, hlast⟩ := ih hnext
      exact ⟨.cons hagree halike, hlast⟩

end I40Aas.Lib
