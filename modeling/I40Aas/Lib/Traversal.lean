import Mathlib.Data.List.Basic

/-!
Traversals of a list by a function that can fail: when `mapM` succeeds, and with what.
-/

namespace I40Aas.Lib

theorem mapM_ok {α β ε : Type} {f : α → Except ε β} {as : List α}
    (h : ∀ a ∈ as, ∃ b, f a = .ok b) : ∃ bs, as.mapM f = .ok bs ∧ as.map f = bs.map .ok := by
  induction as with
  | nil => exact ⟨[], rfl, rfl⟩
  | cons a as ih =>
      obtain ⟨b, hb⟩ := h a List.mem_cons_self
      obtain ⟨bs, hbs, hmap⟩ := ih fun a' ha' => h a' (List.mem_cons_of_mem a ha')
      exact ⟨b :: bs, by simp [hb, hbs, bind, Except.bind, pure, Except.pure], by simp [hb, hmap]⟩

/-- What the results have kept of the arguments. -/
theorem map_eq_of_map_ok {α β γ ε : Type} {f : α → Except ε β} {g : α → γ} {k : β → γ}
    (hk : ∀ a b, f a = .ok b → k b = g a) {as : List α} {bs : List β}
    (h : as.map f = bs.map .ok) : bs.map k = as.map g := by
  induction as generalizing bs with
  | nil =>
      obtain rfl : bs = [] := by simpa using h.symm
      rfl
  | cons a as ih =>
      cases bs with
      | nil => simp at h
      | cons b bs =>
          simp only [List.map_cons, List.cons.injEq] at h ⊢
          exact ⟨hk a b h.1, ih h.2⟩

theorem mapM_eq_some_iff {α β : Type} {f : α → Option β} {as : List α} {bs : List β} :
    as.mapM f = some bs ↔ as.map f = bs.map some := by
  induction as generalizing bs with
  | nil => cases bs <;> simp
  | cons a as ih =>
      cases bs with
      | nil => simp [List.mapM_cons, Option.bind_eq_some_iff]
      | cons b bs => simp [List.mapM_cons, ih, Option.bind_eq_some_iff]

theorem mapM_id_eq_ok_iff {α ε : Type} {results : List (Except ε α)} {as : List α} :
    results.mapM id = .ok as ↔ results = as.map .ok := by
  induction results generalizing as with
  | nil => cases as <;> simp [pure, Except.pure]
  | cons result results ih =>
      cases result with
      | error e => cases as <;> simp [bind, Except.bind]
      | ok a =>
          rw [List.mapM_cons]
          cases as with
          | nil => cases results.mapM id <;> simp [bind, Except.bind, pure, Except.pure]
          | cons b as =>
              rw [List.map_cons, List.cons.injEq, ← ih]
              cases results.mapM id <;> simp [bind, Except.bind, pure, Except.pure]

end I40Aas.Lib
