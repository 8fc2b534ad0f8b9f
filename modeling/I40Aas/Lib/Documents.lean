import Mathlib.Data.Int.Basic
import Mathlib.Logic.Function.Basic

/-!
A collection of documents, one for each identifier, and its update command with `upsert`: the
document that the filter matches is changed, and where there is none, one with the fields of the
filter is changed and inserted. An identifier is not given away twice.
-/

namespace I40Aas.Lib.Documents

variable {V : Type*}

/-- The value of a field: a number that can be counted up, or anything else. -/
inductive Value (V : Type*)
  | int (n : ℤ)
  | other (v : V)
  deriving DecidableEq

abbrev Document (V : Type*) := String → Option (Value V)

/-- The documents by `_id`. -/
abbrev Collection (V : Type*) := Value V → Option (Document V)

/-- An equality filter that names the `_id`. -/
structure FilterQuery (V : Type*) where
  _id : Value V
  others : List (String × Value V)

/-- `$inc` and `$set`. -/
structure UpdateObject (V : Type*) where
  inc : List (String × ℤ)
  set : Document V

inductive UpdateError
  /-- A field is counted up and set at once. -/
  | conflict
  /-- What is counted up is not a number. -/
  | typeMismatch
  /-- The `_id` would change. -/
  | immutableField
  | duplicateKey
  deriving DecidableEq

/-- The document that an insertion starts from. -/
def FilterQuery.equalityFields (filter : FilterQuery V) : Document V := fun name =>
  if name = "_id" then some filter._id else filter.others.lookup name

def incField (doc : Document V) (change : String × ℤ) : Except UpdateError (Document V) :=
  match doc change.1 with
  | none => .ok (Function.update doc change.1 (some (.int change.2)))
  | some (.int n) => .ok (Function.update doc change.1 (some (.int (n + change.2))))
  | some (.other _) => .error .typeMismatch

def setFields (set doc : Document V) : Document V := fun name => (set name).or (doc name)

section

variable [DecidableEq V]

def FilterQuery.accepts (filter : FilterQuery V) (doc : Document V) : Bool :=
  filter.others.all fun field => doc field.1 = some field.2

def UpdateObject.apply (u : UpdateObject V) (doc : Document V) :
    Except UpdateError (Document V) :=
  if u.inc.any fun change => (u.set change.1).isSome then .error .conflict
  else
    match u.inc.foldlM incField doc with
    | .error e => .error e
    | .ok counted =>
        if setFields u.set counted "_id" = doc "_id" then .ok (setFields u.set counted)
        else .error .immutableField

/-- One update command with `upsert`, which runs at once. -/
def update (collection : Collection V) (filter : FilterQuery V) (u : UpdateObject V) :
    Except UpdateError (Collection V) :=
  match collection filter._id with
  | some doc =>
      if filter.accepts doc then
        (u.apply doc).map fun doc' => Function.update collection filter._id (some doc')
      -- nothing matches, and the document that would be inserted has a taken `_id`
      else (u.apply filter.equalityFields).bind fun _ => .error .duplicateKey
  | none =>
      (u.apply filter.equalityFields).map fun doc' =>
        Function.update collection filter._id (some doc')

end

@[simp] theorem setFields_of_none {set doc : Document V} {name : String} (h : set name = none) :
    setFields set doc name = doc name := by
  rw [setFields, h, Option.none_or]

section

variable [DecidableEq V] {collection collection' : Collection V} {filter : FilterQuery V}
  {u : UpdateObject V} {set doc doc' : Document V} {name : String} {n k : ℤ}

/-- An update takes place if the document under the identifier matches or is missing, and
changes this document and no other. -/
theorem update_eq_ok_iff :
    update collection filter u = .ok collection' ↔
      (∀ doc, collection filter._id = some doc → filter.accepts doc = true) ∧
      ∃ doc', u.apply ((collection filter._id).getD filter.equalityFields) = .ok doc' ∧
        collection' = Function.update collection filter._id (some doc') := by
  rw [update]
  cases hold : collection filter._id with
  | none =>
      cases happly : u.apply filter.equalityFields with
      | error e => simp [happly, Except.map]
      | ok doc' => simp [happly, Except.map, @eq_comm _ collection']
  | some doc =>
      cases haccepts : filter.accepts doc with
      | true =>
          cases happly : u.apply doc with
          | error e => simp [haccepts, happly, Except.map]
          | ok doc' => simp [haccepts, happly, Except.map, @eq_comm _ collection']
      | false =>
          cases happly : u.apply filter.equalityFields with
          | error e => simp [haccepts, Except.bind]
          | ok doc' => simp [haccepts, Except.bind]

/-- Counting up one field that is there and setting others. -/
theorem apply_eq_ok_iff (hname : name ≠ "_id") (hn : doc name = some (.int n)) :
    (UpdateObject.mk [(name, k)] set).apply doc = .ok doc' ↔
      set name = none ∧ setFields set doc "_id" = doc "_id" ∧
      doc' = setFields set (Function.update doc name (some (.int (n + k)))) := by
  have hinc : [(name, k)].foldlM incField doc =
      .ok (Function.update doc name (some (.int (n + k)))) := by
    rw [List.foldlM_cons, incField, hn]
    rfl
  have hid : setFields set (Function.update doc name (some (.int (n + k)))) "_id" =
      setFields set doc "_id" := by
    rw [setFields, setFields, Function.update_of_ne hname.symm]
  rw [UpdateObject.apply]
  cases hset : set name with
  | some v => simp [hset]
  | none =>
      have hany : ([(name, k)].any fun change => (set change.1).isSome) = false := by
        simp [hset]
      rw [if_neg (by simp [hset])]
      simp only [hinc]
      rw [hid]
      split
      · rename_i heq
        simp [heq, eq_comm]
      · rename_i hne
        simp [hne]

end

end I40Aas.Lib.Documents
