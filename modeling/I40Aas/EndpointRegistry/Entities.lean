import I40Aas.Lib.Field
import I40Aas.Lib.Table

/-!
The data of the endpoint registry: the records of a request, the entities that
TypeORM keeps in the database, and what `save` and `delete` do to the tables.

`save` inserts or updates by primary key and writes no column whose value is
`undefined`. A descriptor's endpoint rows belong to no descriptor: their key is
the address with the type, and every descriptor that lists the key shares the row.
-/

namespace I40Aas.EndpointRegistry

open I40Aas.Lib

structure IIdentifier where
  id : String
  idType : String
  deriving DecidableEq, Repr

structure IEndpoint where
  address : String
  type : String
  target : Field
  user : Field
  password : Field
  salt : Field
  tlsCertificate : Field
  certificateX509I40 : Field
  deriving DecidableEq, Repr

structure IAASDescriptor where
  identification : IIdentifier
  asset : IIdentifier
  endpoints : List IEndpoint
  signature : Field
  deriving DecidableEq, Repr

structure IRole where
  name : String
  aasDescriptorIds : List IIdentifier
  deriving DecidableEq, Repr

structure ISemanticProtocol where
  identification : IIdentifier
  roles : List IRole
  deriving DecidableEq, Repr

/-- The primary key of `EndpointEntity`: address and type. -/
abbrev EndpointKey := String × String

def IEndpoint.key (e : IEndpoint) : EndpointKey := (e.address, e.type)

/-- The columns of `EndpointEntity` beside its key. -/
structure EndpointEntity where
  target : Option String
  user : Option String
  password : Option String
  salt : Option String
  tlsCertificate : Option String
  certificateX509I40 : Option String
  deriving DecidableEq, Repr

/-- A descriptor with the keys it has in the other tables. -/
structure AASDescriptorEntity where
  idType : String
  asset : String
  signature : Option String
  endpoints : List EndpointKey
  deriving DecidableEq, Repr

structure RoleEntity where
  name : String
  semProtocol : String
  aasDescriptorIds : List String
  deriving DecidableEq, Repr

/-- The tables of the registry. An asset and a semantic protocol have one column
beside their key, the `idType`. -/
structure Db where
  assets : Table String String
  endpoints : Table EndpointKey EndpointEntity
  aasDescriptors : Table String AASDescriptorEntity
  semanticProtocols : Table String String
  roles : List RoleEntity
  deriving DecidableEq

def Db.empty : Db := ⟨∅, ∅, ∅, ∅, []⟩

/-- The row a saved endpoint leaves; `target` has the default "cloud". -/
def IEndpoint.row (e : IEndpoint) (old : Option EndpointEntity) : EndpointEntity where
  target := e.target.assign (match old with | some row => row.target | none => some "cloud")
  user := e.user.assign (old.bind (·.user))
  password := e.password.assign (old.bind (·.password))
  salt := e.salt.assign (old.bind (·.salt))
  tlsCertificate := e.tlsCertificate.assign (old.bind (·.tlsCertificate))
  certificateX509I40 := e.certificateX509I40.assign (old.bind (·.certificateX509I40))

def Db.saveAsset (db : Db) (asset : IIdentifier) : Db :=
  { db with assets := db.assets.insert asset.id asset.idType }

/-- Another descriptor has the asset: the one-to-one relation makes the asset
column of the descriptors unique. -/
def Db.assetTaken (db : Db) (aasId assetId : String) : Bool :=
  db.aasDescriptors.keys.any fun id =>
    id ≠ aasId && ((db.aasDescriptors.lookup id).map (·.asset)) == some assetId

/-- The endpoints that the descriptor lists so far. -/
def Db.listedKeys (db : Db) (aasId : String) : List EndpointKey :=
  ((db.aasDescriptors.lookup aasId).map (·.endpoints)).getD []

/-- An endpoint that is given twice would get two join rows with one key. A key that the
descriptor lists already gets none. -/
def Db.joinsTwice (db : Db) (aasId : String) (keys : List EndpointKey) : Bool :=
  decide ¬ (keys.filter (· ∉ db.listedKeys aasId)).Nodup

/-- A constraint is violated by the rows of the descriptor: the one of the asset or the
primary key of the join table. -/
def Db.refuses (db : Db) (aasId assetId : String) (keys : List EndpointKey) : Bool :=
  db.assetTaken aasId assetId || db.joinsTwice aasId keys

/-- `aasDescriptorRepository.save`, which saves the asset and the endpoints with
the descriptor in one transaction. `none`: a constraint is violated. -/
def Db.saveAASDescriptor (db : Db) (identification asset : IIdentifier) (signature : Field)
    (endpoints : List IEndpoint) : Option Db :=
  if db.refuses identification.id asset.id (endpoints.map IEndpoint.key) then none
  else some
    { db with
      assets := db.assets.insert asset.id asset.idType
      endpoints := saveAll IEndpoint.key IEndpoint.row db.endpoints endpoints
      aasDescriptors := db.aasDescriptors.insert identification.id
        { idType := identification.idType
          asset := asset.id
          signature := signature.assign
            ((db.aasDescriptors.lookup identification.id).bind (·.signature))
          endpoints := (endpoints.map IEndpoint.key).dedup } }

/-- `aasDescriptorRepository.delete`. The join rows go with the descriptor; its
asset and its endpoints stay. -/
def Db.deleteAASDescriptor (db : Db) (aasId : String) : Db :=
  { db with
    aasDescriptors := db.aasDescriptors.erase aasId
    roles := db.roles.map fun role =>
      { role with aasDescriptorIds := role.aasDescriptorIds.filter (· ≠ aasId) } }

/-- The delete query on the roles of a protocol. -/
def Db.deleteRoles (db : Db) (protocolId : String) : Db :=
  { db with roles := db.roles.filter (·.semProtocol ≠ protocolId) }

/-- The rows of the given roles. -/
def ISemanticProtocol.roleRows (record : ISemanticProtocol) : List RoleEntity :=
  record.roles.map fun role =>
    { name := role.name
      semProtocol := record.identification.id
      aasDescriptorIds := role.aasDescriptorIds.map (·.id) }

/-- What the constraints of the tables ask of the roles of a protocol: a role name
occurs once in a protocol, and a role is assigned registered descriptors, each
at most once. -/
def Db.Accepts (db : Db) (rows : List RoleEntity) : Prop :=
  (∀ row ∈ rows, row.aasDescriptorIds.Nodup ∧
    ∀ id ∈ row.aasDescriptorIds, id ∈ db.aasDescriptors.keys) ∧
  ((db.roles ++ rows).map fun row => (row.name, row.semProtocol)).Nodup

instance (db : Db) (rows : List RoleEntity) : Decidable (db.Accepts rows) :=
  inferInstanceAs (Decidable (_ ∧ _))

/-- `semProtocolRepository.save` of a protocol whose roles are not stored yet.
`none`: a constraint is violated. -/
def Db.saveSemanticProtocol (db : Db) (record : ISemanticProtocol) : Option Db :=
  if db.Accepts record.roleRows then
    some
      { db with
        semanticProtocols :=
          db.semanticProtocols.insert record.identification.id record.identification.idType
        roles := db.roles ++ record.roleRows }
  else none

/-- `semanticProtocolRepo.delete`; the roles go with their protocol. -/
def Db.deleteSemanticProtocol (db : Db) (protocolId : String) : Db :=
  { db with
    semanticProtocols := db.semanticProtocols.erase protocolId
    roles := db.roles.filter (·.semProtocol ≠ protocolId) }

/-- Save the AAS ids of the role with this name in this protocol. -/
def Db.saveRole (db : Db) (semProtocol name : String) (aasDescriptorIds : List String) : Db :=
  { db with
    roles := db.roles.map fun role =>
      if role.semProtocol = semProtocol ∧ role.name = name then
        { role with aasDescriptorIds := aasDescriptorIds }
      else role }

/-! ### What saving a descriptor does to the tables -/

theorem Db.assetTaken_iff {db : Db} {aasId assetId : String} :
    db.assetTaken aasId assetId = true ↔
      ∃ id row, db.aasDescriptors.lookup id = some row ∧ id ≠ aasId ∧ row.asset = assetId := by
  simp only [Db.assetTaken, List.any_eq_true, Bool.and_eq_true, decide_eq_true_eq, beq_iff_eq,
    Option.map_eq_some_iff]
  constructor
  · rintro ⟨id, -, hne, row, hrow, rfl⟩
    exact ⟨id, row, hrow, hne, rfl⟩
  · rintro ⟨id, row, hrow, hne, rfl⟩
    have hmem : id ∈ db.aasDescriptors := AList.lookup_isSome.mp (by simp [hrow])
    exact ⟨id, AList.mem_keys.mpr hmem, hne, row, hrow, rfl⟩

theorem Db.refuses_eq_false_iff {db : Db} {aasId assetId : String} {keys : List EndpointKey} :
    db.refuses aasId assetId keys = false ↔
      db.assetTaken aasId assetId = false ∧ db.joinsTwice aasId keys = false := by
  rw [Db.refuses, Bool.or_eq_false_iff]

/-- Distinct endpoints are joined once each, whatever the descriptor lists so far. -/
theorem Db.joinsTwice_of_nodup {keys : List EndpointKey} (h : keys.Nodup) (db : Db)
    (aasId : String) : db.joinsTwice aasId keys = false := by
  simp [Db.joinsTwice, h.filter]

end I40Aas.EndpointRegistry
