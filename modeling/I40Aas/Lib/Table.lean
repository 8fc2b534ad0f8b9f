import Mathlib.Data.List.AList

/-!
Tables of a database: finite maps from primary keys to rows, and the saving of a
list of entities by primary key. A row is inserted or updated from the first
entity of its key that is listed, in one step from what the table held before.
-/

namespace I40Aas.Lib

variable {κ : Type*} [DecidableEq κ] {ρ ε : Type*}

/-- A table with primary keys `κ` and rows `ρ`. -/
abbrev Table (κ ρ : Type*) := AList fun _ : κ => ρ

/-- Save entities by primary key; `row` makes the new row from the entity and the
old row. -/
def saveAll (key : ε → κ) (row : ε → Option ρ → ρ) (t : Table κ ρ) : List ε → Table κ ρ
  | [] => t
  | e :: es => (saveAll key row t es).insert (key e) (row e (t.lookup (key e)))

variable {key : ε → κ} {row : ε → Option ρ → ρ} {t : Table κ ρ} {es : List ε} {k : κ}

theorem lookup_saveAll : (saveAll key row t es).lookup k =
    match es.find? fun e => key e = k with
    | some e => some (row e (t.lookup k))
    | none => t.lookup k := by
  induction es with
  | nil => rfl
  | cons e es ih =>
      rw [saveAll]
      by_cases h : key e = k
      · subst h
        rw [AList.lookup_insert, List.find?_cons_of_pos (by simp)]
      · rw [AList.lookup_insert_ne (Ne.symm h), ih, List.find?_cons_of_neg (by simpa using h)]

/-- A table loses no row when entities are saved. -/
theorem lookup_saveAll_isSome (h : (t.lookup k).isSome) :
    ((saveAll key row t es).lookup k).isSome := by
  rw [lookup_saveAll]
  split
  · rfl
  · exact h

/-- Every saved entity has a row afterwards. -/
theorem lookup_saveAll_of_mem {e : ε} (h : e ∈ es) :
    ((saveAll key row t es).lookup (key e)).isSome := by
  rw [lookup_saveAll]
  split
  · rfl
  · rename_i hnone
    have := List.find?_eq_none.mp hnone e h
    simp at this

end I40Aas.Lib
