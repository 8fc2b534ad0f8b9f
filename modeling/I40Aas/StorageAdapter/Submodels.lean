import I40Aas.Lib.OptimisticLock
import I40Aas.Lib.Table
import I40Aas.Lib.Json.Stringify
import I40Aas.Lib.JavaScript

/-!
The submodel repository of the storage adapter for MongoDB. A submodel is stored under
the md5 hash of its id, with a version that every update counts up. An update looks for
the version that was read before it; where no such record is, it is inserted, and MongoDB
refuses the insertion of a second record with the same `_id`.
-/

namespace I40Aas.StorageAdapter

open I40Aas.Lib

/-- What the repository uses of a submodel. -/
structure Submodel where
  /-- `identification.id`. -/
  id : Option String
  /-- The element with the idShort `KEY_PROPERTY`, and the value of it. -/
  keyProperty : Option (Option String)
  /-- `JSON.stringify(submodel)`. -/
  serialized : String
  deriving DecidableEq, Repr

/-- A record without its `_id`: the version and `serializedSubmodel`. -/
abbrev ISubmodelRecord := Versioned String

/-- The records by `_id`. -/
abbrev Collection := Table String ISubmodelRecord

inductive AdapterError
  | badRequest (message : String)
  | notFound (message : String)
  | error (message : String)
  /-- From MongoDB: a record with the `_id` exists. -/
  | duplicateKey
  /-- From MongoDB: the operation is not carried out. -/
  | mongoError
  /-- From `JSON.parse`. -/
  | syntaxError
  deriving DecidableEq, Repr

/-! ### The database client -/

def deleteOne (db : Collection) (_id : String) : Except AdapterError Collection :=
  match db.lookup _id with
  | none =>
      .error (.error ("Items for filter \x7b\"_id\":" ++ String.ofList (Json.stringifyQuote _id) ++
        "\x7dnot found in DB"))
  | some _ => .ok (db.erase _id)

/-- With `upsert` and a new version. -/
def update (db : Collection) (_id : String) (version : ℕ) (serializedSubmodel : String) :
    Except AdapterError Collection :=
  match upsert version serializedSubmodel (db.lookup _id) with
  | none => .error .duplicateKey
  | some record => .ok (db.insert _id record)

/-! ### The repository -/

def KEY_PROPERTY : String := "productinstanceuri"

/-- What is checked before the database is asked; it gives the id. An id that is missing
makes md5 throw. -/
def Submodel.submodelId (submodel : Submodel) : Except AdapterError String :=
  match submodel.id, submodel.keyProperty with
  | some id, some (some _) => .ok id
  | some _, some none =>
      .error (.badRequest (KEY_PROPERTY ++ " needs to have a value in the provided submodel"))
  | _, _ => .error (.badRequest (KEY_PROPERTY ++ " needs to be defined in the provided submodel"))

/-- `JSON.parse` of a `serializedSubmodel`. -/
def parseSubmodel (serializedSubmodel : String) : Except AdapterError JavaScript.Value :=
  match JavaScript.jsonParse (Utf8.bytes serializedSubmodel.toList) with
  | some submodel => .ok submodel
  | none => .error .syntaxError

section

variable (md5 : String → String) (answers : ℕ → Bool) (db : Collection)

/-- The operation takes an `_id`. -/
def delete (id : String) : Except AdapterError Unit × Collection :=
  if answers 0 then
    match deleteOne db id with
    | .error error => (.error error, db)
    | .ok db' => (.ok (), db')
  else (.error .mongoError, db)

def createEquipmentAndSetInitialValues (submodel : Submodel) :
    Except AdapterError Unit × Collection :=
  match submodel.submodelId with
  | .error error => (.error error, db)
  | .ok submodelId =>
      if answers 0 then
        let previousSubmodel := db.lookup (md5 submodelId)
        if answers 1 then
          match update db (md5 submodelId) (expectedVersion previousSubmodel)
            submodel.serialized with
          | .error error => (.error error, db)
          | .ok db' => (.ok (), db')
        else (.error .mongoError, db)
      else (.error .mongoError, db)

/-- The text that is stored. -/
def getSubmodel (submodelid : String) : Except AdapterError String :=
  if answers 0 then
    match db.lookup (md5 submodelid) with
    | some stateRecord => .ok stateRecord.value
    | none => .error (.notFound "Submodel not found in Database")
  else .error .mongoError

def getSubmodels : Except AdapterError (List JavaScript.Value) :=
  if answers 0 then ((db.entries.map (·.2.value)).filter (· ≠ "")).mapM parseSubmodel
  else .error .mongoError

end

/-! ### What the client does to a record -/

variable {db db' : Collection} {_id : String}

theorem deleteOne_eq_ok_iff :
    deleteOne db _id = .ok db' ↔ (∃ record, db.lookup _id = some record) ∧ db' = db.erase _id := by
  unfold deleteOne
  cases db.lookup _id with
  | none => simp
  | some record => simp [eq_comm]

theorem update_eq_ok_iff {version : ℕ} {serialized : String} :
    update db _id version serialized = .ok db' ↔
      (∀ old, db.lookup _id = some old → old.version = version) ∧
        db' = db.insert _id ⟨version + 1, serialized⟩ := by
  unfold update
  cases hup : upsert version serialized (db.lookup _id) with
  | none =>
      obtain ⟨old, hold, hne⟩ := upsert_eq_none_iff.mp hup
      simpa using fun h => absurd (h old hold) hne
  | some record =>
      obtain ⟨rfl, hversion⟩ := upsert_eq_some_iff.mp hup
      constructor
      · intro h
        exact ⟨hversion, (Except.ok.inj h).symm⟩
      · rintro ⟨-, rfl⟩
        rfl

end I40Aas.StorageAdapter
