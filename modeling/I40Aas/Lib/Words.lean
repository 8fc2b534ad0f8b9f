import Mathlib.Algebra.Order.BigOperators.Group.List
import Mathlib.Algebra.Order.Ring.Nat
import Mathlib.Data.List.Basic

/-!
Words joined by a separator. Splitting gives the joined words back as long as the
separator is in none of them; otherwise there are more words than were joined.
-/

namespace I40Aas.Lib

variable {α : Type*} [DecidableEq α] {sep : α}

theorem count_intercalate (w : List α) (ws : List (List α)) :
    ([sep].intercalate (w :: ws)).count sep =
      ws.length + ((w :: ws).map (List.count sep)).sum := by
  induction ws generalizing w with
  | nil => simp
  | cons v ws ih =>
      rw [List.intercalate_cons_cons, List.append_assoc, List.count_append, List.count_append,
        ih, List.count_singleton_self, List.map_cons, List.map_cons, List.sum_cons, List.sum_cons,
        List.length_cons, List.map_cons, List.sum_cons]
      omega

omit [DecidableEq α] in
/-- Nothing is in joined words but what the words and the separator are made of. -/
theorem mem_intercalate {c : α} {ws : List (List α)} (hc : c ∈ [sep].intercalate ws) :
    c = sep ∨ ∃ w ∈ ws, c ∈ w := by
  induction ws with
  | nil => cases hc
  | cons w ws ih =>
      cases ws with
      | nil =>
          rw [List.intercalate_singleton] at hc
          exact .inr ⟨w, List.mem_singleton_self w, hc⟩
      | cons v ws =>
          rw [List.intercalate_cons_cons, List.append_assoc, List.mem_append, List.mem_append,
            List.mem_singleton] at hc
          rcases hc with hw | rfl | hrest
          · exact .inr ⟨w, List.mem_cons_self, hw⟩
          · exact .inl rfl
          · rcases ih hrest with hsep | ⟨u, hu, hcu⟩
            · exact .inl hsep
            · exact .inr ⟨u, List.mem_cons_of_mem w hu, hcu⟩

omit [DecidableEq α] in
theorem intercalate_append {vs ws : List (List α)} (hvs : vs ≠ []) (hws : ws ≠ []) :
    [sep].intercalate (vs ++ ws) = [sep].intercalate vs ++ sep :: [sep].intercalate ws := by
  induction vs with
  | nil => exact absurd rfl hvs
  | cons v vs ih =>
      cases vs with
      | nil =>
          rw [List.singleton_append, List.intercalate_cons_of_ne_nil hws,
            List.intercalate_singleton, List.append_assoc]
          rfl
      | cons u vs =>
          rw [List.cons_append, List.cons_append, List.intercalate_cons_cons, ← List.cons_append,
            ih (List.cons_ne_nil u vs), List.intercalate_cons_cons]
          simp

/-- Joined words split into the same words without their separators exactly when they
have none. -/
theorem splitOn_intercalate_eq_map_iff {f : List α → List α} (hf : ∀ w, sep ∉ f w)
    (hid : ∀ w, sep ∉ w → f w = w) (w : List α) (ws : List (List α)) :
    ([sep].intercalate (w :: ws)).splitOn sep = (w :: ws).map f ↔ ∀ v ∈ w :: ws, sep ∉ v := by
  constructor
  · intro h v hv hsep
    have hjoined : [sep].intercalate ((w :: ws).map f) = [sep].intercalate (w :: ws) := by
      rw [← h]
      exact List.intercalate_splitOn sep
    have hcount := congrArg (List.count sep) hjoined
    rw [List.map_cons, count_intercalate, count_intercalate, List.length_map, ← List.map_cons,
      List.map_map] at hcount
    have hzero : ((w :: ws).map (List.count sep ∘ f)).sum = 0 := by
      refine List.sum_eq_zero fun n hn => ?_
      obtain ⟨u, -, rfl⟩ := List.mem_map.mp hn
      exact List.count_eq_zero.mpr (hf u)
    have hle : v.count sep ≤ ((w :: ws).map (List.count sep)).sum :=
      List.single_le_sum (by simp) _ (List.mem_map_of_mem hv)
    have hpos : 0 < v.count sep := List.count_pos_iff.mpr hsep
    omega
  · intro h
    rw [List.splitOn_intercalate sep h (List.cons_ne_nil w ws)]
    exact ((List.map_congr_left fun v hv => hid v (h v hv)).trans (List.map_id _)).symm

end I40Aas.Lib
