import Mathlib.Algebra.Order.Ring.Nat
import I40Aas.Lib.Execution

/-!
How many steps of a kind a run can take, and that it can be brought to an end. Where each
step of a kind takes something from a supply and no step makes up for it, there are no more
of them than the supply; and where such a step is possible until something is reached, it can
be reached by them alone.
-/

namespace I40Aas.Lib

variable {σ ℓ : Type*} {step : σ → ℓ → Option σ} {I Done : σ → Prop}

/-- A kind of steps that each take one from a supply, which no step makes up for, are no more
than the supply. -/
theorem length_filter_add_le (kind : ℓ → Bool) (supply : σ → ℕ)
    (hI : ∀ s l s', I s → step s l = some s' → I s')
    (hstep : ∀ s l s', I s → step s l = some s' →
      supply s' + (if kind l then 1 else 0) ≤ supply s) {s t : σ} {ls : List ℓ} (hs : I s)
    (hexec : exec step s ls = some t) : (ls.filter kind).length + supply t ≤ supply s := by
  induction ls generalizing s with
  | nil =>
      obtain rfl : s = t := by simpa [exec] using hexec
      simp
  | cons l ls ih =>
      simp only [exec, Option.bind_eq_some_iff] at hexec
      obtain ⟨s', hs', hexec⟩ := hexec
      have hhead := hstep s l s' hs hs'
      have htail := ih (hI s l s' hs hs') hexec
      by_cases hkind : kind l
      · rw [if_pos hkind] at hhead
        rw [List.filter_cons_of_pos hkind, List.length_cons]
        omega
      · rw [if_neg hkind] at hhead
        rw [List.filter_cons_of_neg hkind]
        omega

/-- Steps of a kind lead to the end, where one of them is possible before and each takes
something from a supply. -/
theorem exists_exec_of_supply (kind : ℓ → Prop) (supply : σ → ℕ)
    (hI : ∀ s l s', I s → step s l = some s' → I s')
    (hlt : ∀ s l s', I s → kind l → step s l = some s' → supply s' < supply s)
    (hprogress : ∀ s, I s → ¬ Done s → ∃ l, kind l ∧ (step s l).isSome = true) {s : σ}
    (hs : I s) : ∃ ls t, (∀ l ∈ ls, kind l) ∧ exec step s ls = some t ∧ Done t := by
  induction hn : supply s using Nat.strong_induction_on generalizing s with
  | _ n ih =>
      by_cases hdone : Done s
      · exact ⟨[], s, fun l hl => absurd hl List.not_mem_nil, rfl, hdone⟩
      · obtain ⟨l, hkind, hsome⟩ := hprogress s hs hdone
        obtain ⟨s', hs'⟩ := Option.isSome_iff_exists.mp hsome
        have hsupply := hlt s l s' hs hkind hs'
        obtain ⟨ls, t, hkinds, hexec, ht⟩ := ih (supply s') (by omega) (hI s l s' hs hs') rfl
        refine ⟨l :: ls, t, ?_, ?_, ht⟩
        · intro l' hl'
          rcases List.mem_cons.mp hl' with rfl | hl'
          · exact hkind
          · exact hkinds l' hl'
        · rw [exec, hs']
          exact hexec

/-- What is taken from one summand is taken from the sum. -/
theorem sum_modify {α : Type*} {as : List α} {i : ℕ} {a : α} {f : α → α} (g : α → ℕ)
    (ha : as[i]? = some a) :
    ((as.modify i f).map g).sum + g a = (as.map g).sum + g (f a) := by
  induction as generalizing i with
  | nil => cases ha
  | cons a' as ih =>
      cases i with
      | zero =>
          obtain rfl : a' = a := Option.some.inj ha
          simp only [List.modify_zero_cons, List.map_cons, List.sum_cons]
          omega
      | succ i =>
          have htail := ih (i := i) ha
          simp only [List.modify_succ_cons, List.map_cons, List.sum_cons]
          omega

end I40Aas.Lib
