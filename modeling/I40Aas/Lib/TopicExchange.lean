import Mathlib.Data.List.Infix

/-!
Routing on a topic exchange. A routing key is a list of words; in the key of a binding `*`
stands for exactly one word and `#` for any number of them, none included. `Fits` says so,
`fits` computes it. The rules peel a binding key off from the left.
-/

namespace I40Aas.Lib

/-- A word of a binding key. -/
inductive BindingWord (α : Type*)
  | word (w : α)
  | one
  | many
  deriving DecidableEq, Repr

variable {α : Type*} {ps : List (BindingWord α)} {ws : List α}

inductive Fits : List (BindingWord α) → List α → Prop
  | nil : Fits [] []
  | word {ps : List (BindingWord α)} {ws : List α} (w : α) :
      Fits ps ws → Fits (.word w :: ps) (w :: ws)
  | one {ps : List (BindingWord α)} {ws : List α} (w : α) : Fits ps ws → Fits (.one :: ps) (w :: ws)
  | many {ps : List (BindingWord α)} {ws : List α} (skipped : List α) :
      Fits ps ws → Fits (.many :: ps) (skipped ++ ws)

/-- A binding key without words fits a routing key without words. -/
def fits [DecidableEq α] : List (BindingWord α) → List α → Bool
  | [], ws => ws.isEmpty
  | .word w :: ps, ws => ws.head? = some w && fits ps ws.tail
  | .one :: ps, ws => !ws.isEmpty && fits ps ws.tail
  | .many :: ps, ws => ws.tails.any (fits ps)

theorem fits_iff [DecidableEq α] : fits ps ws = true ↔ Fits ps ws := by
  induction ps generalizing ws with
  | nil =>
      rw [fits, List.isEmpty_iff]
      constructor
      · rintro rfl
        exact .nil
      · intro h
        cases h
        rfl
  | cons p ps ih =>
      cases p with
      | word w =>
          rw [fits, Bool.and_eq_true, decide_eq_true_eq, ih]
          constructor
          · rintro ⟨hhead, htail⟩
            obtain ⟨ws, rfl⟩ := List.head?_eq_some_iff.mp hhead
            exact .word w htail
          · intro h
            cases h with
            | word _ h => exact ⟨rfl, h⟩
      | one =>
          rw [fits, Bool.and_eq_true, ih]
          constructor
          · rintro ⟨hne, htail⟩
            cases ws with
            | nil => cases hne
            | cons w ws => exact .one w htail
          · intro h
            cases h with
            | one _ h => exact ⟨rfl, h⟩
      | many =>
          rw [fits, List.any_eq_true]
          constructor
          · rintro ⟨rest, hrest, hfits⟩
            obtain ⟨skipped, rfl⟩ := (List.mem_tails _ _).mp hrest
            exact .many skipped (ih.mp hfits)
          · intro h
            cases h with
            | many skipped h =>
                exact ⟨_, (List.mem_tails _ _).mpr (List.suffix_append _ _), ih.mpr h⟩

/-! ### The rules -/

@[simp] theorem fits_nil_iff : Fits [] ws ↔ ws = [] := by
  constructor
  · intro h
    cases h
    rfl
  · rintro rfl
    exact .nil

/-- A binding key that begins with words. -/
theorem fits_word_append_iff (vs : List α) :
    Fits (vs.map .word ++ ps) ws ↔ ∃ rest, ws = vs ++ rest ∧ Fits ps rest := by
  induction vs generalizing ws with
  | nil => simp
  | cons v vs ih =>
      constructor
      · intro h
        cases h with
        | word _ h =>
            obtain ⟨rest, rfl, hrest⟩ := ih.mp h
            exact ⟨rest, rfl, hrest⟩
      · rintro ⟨rest, rfl, hrest⟩
        exact .word v (ih.mpr ⟨rest, rfl, hrest⟩)

/-- A binding key of words only fits itself. -/
theorem fits_word_iff (vs : List α) : Fits (vs.map .word) ws ↔ ws = vs := by
  have h : Fits (vs.map .word ++ []) ws ↔ ∃ rest, ws = vs ++ rest ∧ Fits [] rest :=
    fits_word_append_iff vs
  simpa using h

theorem fits_one_iff : Fits [.one] ws ↔ ∃ w, ws = [w] := by
  constructor
  · intro h
    cases h with
    | one w h =>
        obtain rfl := fits_nil_iff.mp h
        exact ⟨w, rfl⟩
  · rintro ⟨w, rfl⟩
    exact .one w .nil

theorem fits_many (ws : List α) : Fits [.many] ws := by
  have h : Fits [.many] (ws ++ []) := .many ws .nil
  rwa [List.append_nil] at h

/-! ### The exchange -/

structure Binding (κ α : Type*) where
  queue : κ
  key : List (BindingWord α)

/-- The queues that get a copy of a message with this routing key. -/
def route {κ : Type*} [DecidableEq α] (bindings : List (Binding κ α)) (key : List α) : List κ :=
  (bindings.filter fun b => fits b.key key).map (·.queue)

theorem mem_route_iff {κ : Type*} [DecidableEq α] {bindings : List (Binding κ α)} {key : List α}
    {q : κ} : q ∈ route bindings key ↔ ∃ b ∈ bindings, b.queue = q ∧ Fits b.key key := by
  simp only [route, List.mem_map, List.mem_filter, fits_iff]
  constructor
  · rintro ⟨b, ⟨hmem, hfits⟩, rfl⟩
    exact ⟨b, hmem, rfl, hfits⟩
  · rintro ⟨b, hmem, rfl, hfits⟩
    exact ⟨b, ⟨hmem, hfits⟩, rfl⟩

end I40Aas.Lib
