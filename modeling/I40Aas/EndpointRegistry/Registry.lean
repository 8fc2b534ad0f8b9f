import Mathlib.Data.Multiset.Filter
import I40Aas.Lib.Execution
import I40Aas.EndpointRegistry.Encryption

/-!
The class `Registry` of the endpoint registry: the operations on descriptors and
semantic protocols, statement by statement, and the reading of a descriptor.

A call may meet a database that does not answer or refuses a
statement for a reason the tables do not show; `CallEnv.answers` says so for the
statements of a call in their order.
-/

namespace I40Aas.EndpointRegistry

open I40Aas.Lib

/-- What a call meets outside: whether the database takes the statement with this
number, and the random values for the endpoint with this index. -/
structure CallEnv where
  answers : ℕ → Bool
  random : ℕ → Random

inductive RegistryError
  | http422Error (message : String)
  | http404Error (message : String)
  /-- From the database. -/
  | queryFailedError
  /-- A property of `undefined` is read. -/
  | typeError
  deriving DecidableEq, Repr

/-! ### The operations -/

/-- A call that ends with a `save`: what it returns and the tables it leaves. -/
def finish {α : Type*} (answers : Bool) (saved : Option Db) (db : Db) (value : α) :
    Except RegistryError α × Db :=
  match (if answers then saved else none) with
  | some db' => (.ok value, db')
  | none => (.error .queryFailedError, db)

section Operations

variable (aes : Aes) (env : CallEnv) (db : Db)

def upsertAASDescriptor (record : IAASDescriptor) : Except RegistryError IAASDescriptor × Db :=
  if env.answers 0 then
    let db := db.saveAsset record.asset
    let endpoints := encryptEndpoints aes env.random record.endpoints
    finish (env.answers 1)
      (db.saveAASDescriptor record.identification record.asset record.signature endpoints)
      db { record with endpoints := endpoints }
  else (.error .queryFailedError, db)

def createAASDescriptor (record : IAASDescriptor) : Except RegistryError IAASDescriptor × Db :=
  if env.answers 0 then
    match db.aasDescriptors.lookup record.identification.id with
    | none =>
        let endpoints := encryptEndpoints aes env.random record.endpoints
        finish (env.answers 1)
          (db.saveAASDescriptor record.identification record.asset record.signature endpoints)
          db { record with endpoints := endpoints }
    | some _ => (.error (.http422Error "Resource alredy registered in Database"), db)
  else (.error .queryFailedError, db)

/-- The loaded descriptor keeps its `idType`. -/
def updateAasDescriptorByAasId (record : IAASDescriptor) :
    Except RegistryError IAASDescriptor × Db :=
  if env.answers 0 then
    match db.aasDescriptors.lookup record.identification.id with
    | some loaded =>
        let endpoints := encryptEndpoints aes env.random record.endpoints
        finish (env.answers 1)
          (db.saveAASDescriptor ⟨record.identification.id, loaded.idType⟩ record.asset
            record.signature endpoints)
          db { record with endpoints := endpoints }
    | none => (.error (.http422Error "Resource not found in Database"), db)
  else (.error .queryFailedError, db)

def deleteAasDescriptorByAasId (aasId : String) : Except RegistryError Unit × Db :=
  if env.answers 0 then
    if aasId ∈ db.aasDescriptors.keys then (.ok (), db.deleteAASDescriptor aasId)
    else
      (.error (.http422Error ("No Resource with this aasId found in Database: " ++ aasId)), db)
  else (.error .queryFailedError, db)

def createSemanticProtocol (record : ISemanticProtocol) :
    Except RegistryError ISemanticProtocol × Db :=
  if env.answers 0 then
    if record.identification.id ∈ db.semanticProtocols.keys then
      (.error (.http422Error
        ("SemanticProtocol with this ID already in Database: " ++ record.identification.id)), db)
    else finish (env.answers 1) (db.saveSemanticProtocol record) db record
  else (.error .queryFailedError, db)

/-- The roles are deleted by a query of their own before the save. -/
def replaceRoles (answersDelete answersSave : Bool) (record : ISemanticProtocol) :
    Except RegistryError ISemanticProtocol × Db :=
  if answersDelete then
    let db := db.deleteRoles record.identification.id
    finish answersSave (db.saveSemanticProtocol record) db record
  else (.error .queryFailedError, db)

def upsertSemanticProtocol (record : ISemanticProtocol) :
    Except RegistryError ISemanticProtocol × Db :=
  replaceRoles db (env.answers 0) (env.answers 1) record

def updateSemanticProtocolById (record : ISemanticProtocol) :
    Except RegistryError ISemanticProtocol × Db :=
  if env.answers 0 then
    if record.identification.id ∈ db.semanticProtocols.keys then
      replaceRoles db (env.answers 1) (env.answers 2) record
    else
      (.error (.http422Error "No Entry with this semanticProtocolId found in Database"), db)
  else (.error .queryFailedError, db)

def deleteSemanticProtocolById (semanticProtocolId : String) : Except RegistryError Unit × Db :=
  if env.answers 0 then
    if semanticProtocolId ∈ db.semanticProtocols.keys then
      (.ok (), db.deleteSemanticProtocol semanticProtocolId)
    else
      (.error (.http422Error
        ("No Resource with this SemanticProtocolId found in Database: " ++ semanticProtocolId)),
        db)
  else (.error .queryFailedError, db)

/-- `findOne` of a role by protocol and name. -/
def Db.findRole (semProtocol name : String) : Option RoleEntity :=
  db.roles.find? fun role => role.semProtocol = semProtocol ∧ role.name = name

/-- The registered ones among the ids are counted against the list. The query for an empty
list has an empty `IN ()`, which the database refuses. -/
def updateAASDescriptorsToRole (sProtocol roleName : String) (aasIds : List IIdentifier) :
    Except RegistryError RoleEntity × Db :=
  if env.answers 0 then
    match db.findRole sProtocol roleName with
    | none => (.error (.http422Error "No Role found for this protocol and role name"), db)
    | some role =>
        if env.answers 1 ∧ aasIds ≠ [] then
          let found := db.aasDescriptors.keys.filter (· ∈ aasIds.map (·.id))
          if found.length < aasIds.length then
            (.error (.http422Error
              " One or more of the provided AAS Ids does not exist in Database"), db)
          else
            finish (env.answers 2) (some (db.saveRole sProtocol roleName found)) db
              { role with aasDescriptorIds := found }
        else (.error .queryFailedError, db)
  else (.error .queryFailedError, db)

def deleteAASIdFromRole (sProtocol roleName aasIdToRemove : String) :
    Except RegistryError RoleEntity × Db :=
  if env.answers 0 then
    match db.findRole sProtocol roleName with
    | none => (.error (.http422Error "No Role found for this protocol and role name"), db)
    | some role =>
        let left := role.aasDescriptorIds.filter (· ≠ aasIdToRemove)
        finish (env.answers 1) (some (db.saveRole sProtocol roleName left)) db
          { role with aasDescriptorIds := left }
  else (.error .queryFailedError, db)

end Operations

/-! ### Reading a descriptor -/

/-- An endpoint as it is read. Its salt is left out, unless it is the empty string. -/
structure EndpointResponse where
  address : String
  type : String
  target : Option String
  user : Option String
  password : Option String
  salt : Option String
  tlsCertificate : Option String
  certificateX509I40 : Option String
  deriving DecidableEq, Repr

/-- The endpoints are in no order: the queries that join them ask for none. -/
structure AASDescriptorResponse where
  identification : IIdentifier
  asset : IIdentifier
  endpoints : Multiset EndpointResponse
  signature : Option String
  deriving DecidableEq

def EndpointEntity.response (aes : Aes) (key : EndpointKey) (row : EndpointEntity) :
    EndpointResponse where
  address := key.1
  type := key.2
  target := row.target
  user := readCredential aes row.salt row.user
  password := readCredential aes row.salt row.password
  salt := if row.salt = some "" then some "" else none
  tlsCertificate := row.tlsCertificate
  certificateX509I40 := row.certificateX509I40

/-- A descriptor with its endpoints and asset; an empty signature is left out. -/
def readAASDescriptorByAasId (aes : Aes) (db : Db) (aasId : String) :
    Except RegistryError AASDescriptorResponse :=
  match db.aasDescriptors.lookup aasId with
  | none => .error (.http404Error ("No AASDescriptor found with aasId: " ++ aasId))
  | some row =>
      match db.assets.lookup row.asset with
      | none => .error .typeError
      | some idType =>
          .ok
            { identification := ⟨aasId, row.idType⟩
              asset := ⟨row.asset, idType⟩
              endpoints := Multiset.filterMap
                (fun key => (db.endpoints.lookup key).map (·.response aes key)) row.endpoints
              signature := row.signature.filter (· ≠ "") }

/-- What the readings of several descriptors make of a loaded one. -/
def AASDescriptorEntity.response (aes : Aes) (db : Db) (aasId : String)
    (row : AASDescriptorEntity) : Except RegistryError AASDescriptorResponse :=
  match db.assets.lookup row.asset with
  | none => .error .typeError
  | some idType =>
      .ok
        { identification := ⟨aasId, row.idType⟩
          asset := ⟨row.asset, idType⟩
          endpoints := Multiset.filterMap
            (fun key => (db.endpoints.lookup key).map (·.response aes key)) row.endpoints
          signature := row.signature.filter (· ≠ "") }

/-- The descriptors with the ids of the role are loaded anew. -/
def readAASDescriptorsBySemanticProtocolAndRole (aes : Aes) (db : Db)
    (semanticProtocolId roleName : String) : Except RegistryError (List AASDescriptorResponse) :=
  match db.findRole semanticProtocolId roleName with
  | none =>
      .error (.http422Error ("No Role found for the protocol " ++ semanticProtocolId ++
        " with\n        name " ++ roleName))
  | some role =>
      if role.aasDescriptorIds = [] then .ok []
      else
        (db.aasDescriptors.entries.filter fun e => e.1 ∈ role.aasDescriptorIds).mapM
          fun e => e.2.response aes db e.1

def listAllAASDescriptors (aes : Aes) (db : Db) :
    Except RegistryError (List AASDescriptorResponse) :=
  db.aasDescriptors.entries.mapM fun e => e.2.response aes db e.1

/-! ### Runs -/

/-- A call of a writing operation and what it meets outside. -/
inductive Call
  | createAASDescriptor (env : CallEnv) (record : IAASDescriptor)
  | upsertAASDescriptor (env : CallEnv) (record : IAASDescriptor)
  | updateAasDescriptorByAasId (env : CallEnv) (record : IAASDescriptor)
  | deleteAasDescriptorByAasId (env : CallEnv) (aasId : String)
  | createSemanticProtocol (env : CallEnv) (record : ISemanticProtocol)
  | upsertSemanticProtocol (env : CallEnv) (record : ISemanticProtocol)
  | updateSemanticProtocolById (env : CallEnv) (record : ISemanticProtocol)
  | deleteSemanticProtocolById (env : CallEnv) (semanticProtocolId : String)
  | updateAASDescriptorsToRole (env : CallEnv) (sProtocol roleName : String)
      (aasIds : List IIdentifier)
  | deleteAASIdFromRole (env : CallEnv) (sProtocol roleName aasIdToRemove : String)

def Call.run (aes : Aes) (db : Db) : Call → Db
  | createAASDescriptor env record => (EndpointRegistry.createAASDescriptor aes env db record).2
  | upsertAASDescriptor env record => (EndpointRegistry.upsertAASDescriptor aes env db record).2
  | updateAasDescriptorByAasId env record =>
      (EndpointRegistry.updateAasDescriptorByAasId aes env db record).2
  | deleteAasDescriptorByAasId env aasId =>
      (EndpointRegistry.deleteAasDescriptorByAasId env db aasId).2
  | createSemanticProtocol env record =>
      (EndpointRegistry.createSemanticProtocol env db record).2
  | upsertSemanticProtocol env record =>
      (EndpointRegistry.upsertSemanticProtocol env db record).2
  | updateSemanticProtocolById env record =>
      (EndpointRegistry.updateSemanticProtocolById env db record).2
  | deleteSemanticProtocolById env semanticProtocolId =>
      (EndpointRegistry.deleteSemanticProtocolById env db semanticProtocolId).2
  | updateAASDescriptorsToRole env sProtocol roleName aasIds =>
      (EndpointRegistry.updateAASDescriptorsToRole env db sProtocol roleName aasIds).2
  | deleteAASIdFromRole env sProtocol roleName aasIdToRemove =>
      (EndpointRegistry.deleteAASIdFromRole env db sProtocol roleName aasIdToRemove).2

/-- The call does not throw. -/
def Call.succeeds (aes : Aes) (db : Db) : Call → Bool
  | createAASDescriptor env record =>
      (EndpointRegistry.createAASDescriptor aes env db record).1.isOk
  | upsertAASDescriptor env record =>
      (EndpointRegistry.upsertAASDescriptor aes env db record).1.isOk
  | updateAasDescriptorByAasId env record =>
      (EndpointRegistry.updateAasDescriptorByAasId aes env db record).1.isOk
  | deleteAasDescriptorByAasId env aasId =>
      (EndpointRegistry.deleteAasDescriptorByAasId env db aasId).1.isOk
  | createSemanticProtocol env record =>
      (EndpointRegistry.createSemanticProtocol env db record).1.isOk
  | upsertSemanticProtocol env record =>
      (EndpointRegistry.upsertSemanticProtocol env db record).1.isOk
  | updateSemanticProtocolById env record =>
      (EndpointRegistry.updateSemanticProtocolById env db record).1.isOk
  | deleteSemanticProtocolById env semanticProtocolId =>
      (EndpointRegistry.deleteSemanticProtocolById env db semanticProtocolId).1.isOk
  | updateAASDescriptorsToRole env sProtocol roleName aasIds =>
      (EndpointRegistry.updateAASDescriptorsToRole env db sProtocol roleName aasIds).1.isOk
  | deleteAASIdFromRole env sProtocol roleName aasIdToRemove =>
      (EndpointRegistry.deleteAASIdFromRole env db sProtocol roleName aasIdToRemove).1.isOk

/-- One call of a sequence of calls on the registry. -/
def step (aes : Aes) (db : Db) (call : Call) : Option Db := some (call.run aes db)

end I40Aas.EndpointRegistry
