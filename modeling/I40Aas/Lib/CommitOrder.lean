import Mathlib.Data.List.Nodup
import I40Aas.Lib.Execution

/-!
Calls of which each takes effect in one step, its commit. The other steps of a run may
interleave as they like, as long as they do not change what is seen of the state. Then
that is what the calls make of the start one after the other, in the order in which
they have committed.
-/

namespace I40Aas.Lib

variable {σ ℓ ι α : Type*}

/-- What the calls make of `a`, one after the other. -/
def inTurn (op : ι → α → α) (order : List ι) (a : α) : α :=
  order.foldl (fun a i => op i a) a

@[simp] theorem inTurn_cons (op : ι → α → α) (i : ι) (order : List ι) (a : α) :
    inTurn op (i :: order) a = inTurn op order (op i a) := rfl

theorem inTurn_append_singleton (op : ι → α → α) (order : List ι) (i : ι) (a : α) :
    inTurn op (order ++ [i]) a = op i (inTurn op order a) := by
  simp [inTurn]

/-- The calls of the order are the ones that have committed, each one once, and they lead
from `a` to what is seen of the state. -/
structure SerialIn (op : ι → α → α) (committed : σ → ι → Prop) (view : σ → α) (a : α) (s : σ)
    (order : List ι) : Prop where
  nodup : order.Nodup
  mem_iff : ∀ i, i ∈ order ↔ committed s i
  view_eq : view s = inTurn op order a

/-- A step in which nobody commits, or one call does. -/
inductive Commits (op : ι → α → α) (committed : σ → ι → Prop) (view : σ → α) (s s' : σ) : Prop
  | nobody : (∀ i, committed s' i ↔ committed s i) → view s' = view s →
      Commits op committed view s s'
  | one (i : ι) : ¬ committed s i → (∀ j, committed s' j ↔ committed s j ∨ j = i) →
      view s' = op i (view s) → Commits op committed view s s'

variable {step : σ → ℓ → Option σ} {op : ι → α → α} {committed : σ → ι → Prop} {view : σ → α}
  {a : α} {s s' : σ}

theorem SerialIn.nil (h : ∀ i, ¬ committed s i) : SerialIn op committed view (view s) s [] where
  nodup := List.nodup_nil
  mem_iff i := by simp [h i]
  view_eq := rfl

theorem SerialIn.commits {order : List ι} (h : SerialIn op committed view a s order)
    (hcommits : Commits op committed view s s') :
    ∃ order', SerialIn op committed view a s' order' := by
  cases hcommits with
  | nobody hcommitted hview =>
      refine ⟨order, h.nodup, fun i => ?_, ?_⟩
      · rw [h.mem_iff, hcommitted]
      · rw [hview, h.view_eq]
  | one i hnew hcommitted hview =>
      refine ⟨order ++ [i], ?_, fun j => ?_, ?_⟩
      · have hi : i ∉ order := fun hi => hnew ((h.mem_iff i).mp hi)
        rw [← List.concat_eq_append]
        exact h.nodup.concat hi
      · rw [List.mem_append, List.mem_singleton, h.mem_iff, hcommitted]
      · rw [inTurn_append_singleton, hview, h.view_eq]

variable (op committed view) in
/-- If the steps with a condition commit in this way, a schedule of such steps is serial
all along. -/
theorem serial_of_guarded {I : σ → Prop} {ok : σ → ℓ → Prop}
    (hI : ∀ s l s', I s → step s l = some s' → I s')
    (hcommits : ∀ s l s', I s → ok s l → step s l = some s' → Commits op committed view s s')
    {ls : List ℓ} (hs : I s) (hnobody : ∀ i, ¬ committed s i) (h : Guarded step ok s ls) :
    Along step (fun t => I t ∧ ∃ order, SerialIn op committed view (view s) t order) s ls := by
  refine along_of_guarded ?_ ⟨hs, [], .nil hnobody⟩ h
  rintro t l t' ⟨hinv, order, hserial⟩ hok hstep
  exact ⟨hI t l t' hinv hstep, hserial.commits (hcommits t l t' hinv hok hstep)⟩

end I40Aas.Lib
