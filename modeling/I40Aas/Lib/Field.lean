import Mathlib.Tactic.Common

/-!
Optional string properties of JavaScript objects: absent, `null` or a string.
`truthy` is what a condition makes of one, `equals` is `===` with a string that
may be absent itself, `assign` is what a property leaves in a column that is only
written when the property is not `undefined`.
-/

namespace I40Aas.Lib

inductive Field
  | undefined
  | null
  | string (value : String)
  deriving DecidableEq, Repr

namespace Field

def truthy : Field → Bool
  | .string value => value ≠ ""
  | _ => false

/-- `===` with a string or `undefined`. -/
def equals : Field → Option String → Bool
  | .undefined, none => true
  | .string value, some value' => value = value'
  | _, _ => false

def assign : Field → Option String → Option String
  | .undefined, column => column
  | .null, _ => none
  | .string value, _ => some value

@[simp] theorem assign_undefined (column : Option String) : undefined.assign column = column := rfl

@[simp] theorem assign_null (column : Option String) : null.assign column = none := rfl

@[simp] theorem assign_string (value : String) (column : Option String) :
    (string value).assign column = some value := rfl

theorem assign_eq_of_ne {f : Field} (h : f ≠ .undefined) (a b : Option String) :
    f.assign a = f.assign b := by
  cases f with
  | undefined => exact absurd rfl h
  | null => rfl
  | string value => rfl

/-- Only a property that is `undefined` shows what the column held before. -/
theorem assign_eq_assign_iff {f : Field} {a b : Option String} :
    f.assign a = f.assign b ↔ (f = .undefined → a = b) := by
  cases f <;> simp

theorem exists_of_truthy {f : Field} (h : f.truthy = true) :
    ∃ value, f = .string value ∧ value ≠ "" := by
  cases f with
  | undefined => cases h
  | null => cases h
  | string value => exact ⟨value, rfl, by simpa [truthy] using h⟩

end Field

end I40Aas.Lib
