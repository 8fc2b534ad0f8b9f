import I40Aas.Lib.Json.Value

/-!
JavaScript values as `JSON.parse` gives them: how their properties are read, what counts
as true, and which of them can be converted to a string. A property that is missing is
`none`, and so is the result of what throws.
-/

namespace I40Aas.Lib.JavaScript

open Json

abbrev Value := Json Literal

/-- `JSON.parse(buffer.toString())`. -/
def jsonParse (input : List UInt8) : Option Value := read input

/-- `v.name`, which may be undefined. Reading from undefined or null throws. An object has
the last member of each name. -/
def getV (v : Option Value) (name : String) : Option (Option Value) :=
  match v with
  | none | some .null => none
  | some (.obj ms) => some (ms.reverse.lookup name)
  | some _ => some none

mutual

/-- Whether the value can be converted to a string. A member `toString` hides the method
that objects have, and an array converts its elements. -/
def convertible : Value → Bool
  | .arr es => convertibleElements es
  | .obj ms => ms.all fun m => m.1 ≠ "toString"
  | _ => true

def convertibleElements : List Value → Bool
  | [] => true
  | e :: es => convertible e && convertibleElements es

end

section

/-! Which number literals are read as zero is left open. -/

variable (isZero : Literal → Bool)

def toBoolean : Option Value → Bool
  | none | some .null => false
  | some (.bool b) => b
  | some (.num l) => !isZero l
  | some (.str s) => s ≠ ""
  | some (.arr _) | some (.obj _) => true

/-- `v.length === 0`. -/
def lengthIsZero (v : Option Value) : Option Bool :=
  match v with
  | some (.str s) => some (s = "")
  | some (.arr es) => some es.isEmpty
  | _ => (getV v "length").map fun length =>
      match length with
      | some (.num l) => isZero l
      | _ => false

/-! How numbers are printed is left open, too. -/

variable (numberToString : Literal → String)

mutual

/-- The conversion to a string. -/
def toText : Value → Option String
  | .null => some "null"
  | .bool b => some (if b then "true" else "false")
  | .num l => some (numberToString l)
  | .str s => some s
  | .arr es => (elementTexts es).map (String.intercalate ",")
  | .obj ms => if ms.all fun m => m.1 ≠ "toString" then some "[object Object]" else none

/-- Null is left out between the commas. -/
def elementTexts : List Value → Option (List String)
  | [] => some []
  | .null :: es => (elementTexts es).map ("" :: ·)
  | e :: es => do
      let text ← toText e
      return text :: (← elementTexts es)

end

/-- `v == s`, where `s` is empty or not a numeral. -/
def looseEq (v : Option Value) (s : String) : Option Bool :=
  match v with
  | none | some .null => some false
  | some (.bool b) => some (s = "" && !b)
  | some (.num l) => some (s = "" && isZero l)
  | some (.str t) => some (t = s)
  | some (.arr es) => (toText numberToString (.arr es)).map fun text => text = s
  | some (.obj ms) => (toText numberToString (.obj ms)).map fun text => text = s

end

mutual

theorem isSome_toText (numberToString : Literal → String) :
    ∀ v, (toText numberToString v).isSome = convertible v
  | .null | .bool _ | .num _ | .str _ => rfl
  | .arr es => by
      rw [toText, Option.isSome_map, convertible]
      exact isSome_elementTexts numberToString es
  | .obj ms => by
      rw [toText, convertible]
      cases ms.all fun m => m.1 ≠ "toString" with
      | true => rfl
      | false => rfl

theorem isSome_elementTexts (numberToString : Literal → String) :
    ∀ es, (elementTexts numberToString es).isSome = convertibleElements es
  | [] => rfl
  | e :: es => by
      have htail := isSome_elementTexts numberToString es
      have hhead := isSome_toText numberToString e
      rw [convertibleElements, ← htail, ← hhead]
      cases e with
      | null => simp [elementTexts, toText]
      | _ =>
          simp only [elementTexts, Option.bind_eq_bind]
          cases toText numberToString _ with
          | none => rfl
          | some text => cases elementTexts numberToString es <;> rfl

end

theorem isSome_looseEq (isZero : Literal → Bool) (numberToString : Literal → String)
    (v : Option Value) (s : String) :
    (looseEq isZero numberToString v s).isSome = v.all convertible := by
  match v with
  | none | some .null | some (.bool _) | some (.num _) | some (.str _) => rfl
  | some (.arr es) =>
      rw [looseEq, Option.isSome_map, isSome_toText]
      rfl
  | some (.obj ms) =>
      rw [looseEq, Option.isSome_map, isSome_toText]
      rfl

end I40Aas.Lib.JavaScript
