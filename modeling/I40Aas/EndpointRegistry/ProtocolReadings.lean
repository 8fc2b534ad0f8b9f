import I40Aas.EndpointRegistry.Reachable

/-!
The readings of a semantic protocol: by its id, and in the list of all. The answer is
put together from the protocol, its roles and the descriptors assigned to them, and gives
a record back as it was written, unless the record has no roles: then the protocol is
stored and the answer is an empty object.
-/

namespace I40Aas.EndpointRegistry

open I40Aas.Lib

/-- A role as it is read, with the `idType` that the descriptors are registered with. -/
def RoleEntity.response (db : Db) (role : RoleEntity) : IRole where
  name := role.name
  aasDescriptorIds := role.aasDescriptorIds.filterMap fun id =>
    (db.aasDescriptors.lookup id).map fun row => ⟨id, row.idType⟩

/-- `none`: the empty object. -/
def readSemanticProtocolById (db : Db) (semanticProtocolId : String) :
    Except RegistryError (Option ISemanticProtocol) :=
  match db.semanticProtocols.lookup semanticProtocolId with
  | none => .error (.http422Error "No Entry with this semanticProtocolId found in Database")
  | some idType =>
      let roles := db.roles.filter (·.semProtocol = semanticProtocolId)
      if roles = [] then .ok none
      else
        .ok (some
          { identification := ⟨semanticProtocolId, idType⟩
            roles := roles.map (·.response db) })

/-- The protocols are found first, and each is read by its id then. -/
def listAllSemanticProtocols (db : Db) : Except RegistryError (List (Option ISemanticProtocol)) :=
  db.semanticProtocols.keys.mapM (readSemanticProtocolById db)

/-- The record that a call writes a protocol from. -/
def Call.writtenProtocol : Call → Option ISemanticProtocol
  | createSemanticProtocol _ record | upsertSemanticProtocol _ record
  | updateSemanticProtocolById _ record => some record
  | _ => none

/-- The answer has the roles of the record, each with the same set of ids. -/
structure ISemanticProtocol.ReadAs (record response : ISemanticProtocol) : Prop where
  identification : response.identification = record.identification
  names : (response.roles.map (·.name)).Perm (record.roles.map (·.name))
  ids : ∀ role ∈ response.roles, ∀ given ∈ record.roles, role.name = given.name →
    ∀ id, id ∈ role.aasDescriptorIds.map (·.id) ↔ id ∈ given.aasDescriptorIds.map (·.id)

section

variable {aes : Aes} {db db' : Db} {record : ISemanticProtocol}

/-! ### What a written protocol leaves -/

/-- A written protocol has the roles of the record and no others. -/
structure Db.Holds (db : Db) (record : ISemanticProtocol) : Prop where
  idType : db.semanticProtocols.lookup record.identification.id =
    some record.identification.idType
  roles : db.roles.filter (·.semProtocol = record.identification.id) = record.roleRows
  names : (record.roles.map (·.name)).Nodup
  registered : ∀ role ∈ record.roles, ∀ aas ∈ role.aasDescriptorIds,
    aas.id ∈ db.aasDescriptors.keys

theorem ISemanticProtocol.filter_roleRows (record : ISemanticProtocol) :
    record.roleRows.filter (·.semProtocol = record.identification.id) = record.roleRows := by
  refine List.filter_eq_self.mpr fun row hrow => ?_
  obtain ⟨role, -, rfl⟩ := List.mem_map.mp hrow
  simp

/-- The protocol has no roles before it is saved. -/
theorem Db.holds_of_save (hnone : ∀ role ∈ db.roles, role.semProtocol ≠ record.identification.id)
    (hsaved : db.saveSemanticProtocol record = some db') : db'.Holds record := by
  unfold Db.saveSemanticProtocol at hsaved
  split at hsaved
  · rename_i haccepts
    obtain rfl := Option.some.inj hsaved
    have hold : db.roles.filter (·.semProtocol = record.identification.id) = [] := by
      rw [List.filter_eq_nil_iff]
      intro role hrole
      simpa using hnone role hrole
    have hnew : (record.roleRows.map fun row => (row.name, row.semProtocol)).Nodup :=
      haccepts.2.sublist ((List.sublist_append_right _ _).map _)
    refine ⟨AList.lookup_insert .., ?_, ?_, ?_⟩
    · rw [List.filter_append, hold, record.filter_roleRows, List.nil_append]
    · have hkeys : record.roleRows.map (fun row => (row.name, row.semProtocol)) =
          (record.roles.map (·.name)).map fun name => (name, record.identification.id) := by
        simp [ISemanticProtocol.roleRows]
      rw [hkeys] at hnew
      exact hnew.of_map
    · intro role hrole aas haas
      exact (haccepts.1 _ (List.mem_map_of_mem hrole)).2 _ (List.mem_map_of_mem haas)
  · cases hsaved

theorem Db.forall_deleteRoles_ne (db : Db) (protocolId : String) :
    ∀ role ∈ (db.deleteRoles protocolId).roles, role.semProtocol ≠ protocolId :=
  fun _ hrole => by simpa using (List.mem_filter.mp hrole).2

theorem Call.holds_of_succeeds (hlinked : db.RolesLinked) {call : Call}
    (hwritten : call.writtenProtocol = some record) (hsucceeds : call.succeeds aes db = true) :
    (call.run aes db).Holds record := by
  have heffect := RoleEffect.of_succeeds hsucceeds
  generalize call.run aes db = db' at heffect ⊢
  cases heffect with
  | written h _ _ _ =>
      cases call with
      | createAASDescriptor env record => cases hwritten
      | upsertAASDescriptor env record => cases hwritten
      | updateAasDescriptorByAasId env record => cases hwritten
      | _ => cases h
  | created env hnew hsaved =>
      obtain rfl := Option.some.inj hwritten
      refine Db.holds_of_save (fun role hrole hprotocol => hnew ?_) hsaved
      rw [← hprotocol]
      exact (hlinked role hrole).1
  | upserted env hsaved =>
      obtain rfl := Option.some.inj hwritten
      exact Db.holds_of_save (db.forall_deleteRoles_ne _) hsaved
  | updated env hsaved =>
      obtain rfl := Option.some.inj hwritten
      exact Db.holds_of_save (db.forall_deleteRoles_ne _) hsaved
  | _ => cases hwritten

/-! ### Reading it -/

/-- Registered ids are all read. -/
theorem RoleEntity.response_ids {role : RoleEntity}
    (h : ∀ id ∈ role.aasDescriptorIds, id ∈ db.aasDescriptors.keys) :
    (role.response db).aasDescriptorIds.map (·.id) = role.aasDescriptorIds := by
  rw [RoleEntity.response, List.map_filterMap]
  refine (List.filterMap_congr fun id hid => ?_).trans (List.filterMap_some ..)
  obtain ⟨row, hrow⟩ := Option.isSome_iff_exists.mp
    (AList.lookup_isSome.mpr (AList.mem_keys.mpr (h id hid)))
  rw [hrow]
  rfl

theorem Db.Holds.read (h : db.Holds record) :
    readSemanticProtocolById db record.identification.id =
      .ok (if record.roles = [] then none
        else some
          { identification := record.identification
            roles := record.roleRows.map (·.response db) }) := by
  have hnil : record.roleRows = [] ↔ record.roles = [] := List.map_eq_nil_iff
  rw [readSemanticProtocolById, h.idType]
  simp only [h.roles, hnil]
  split <;> rfl

theorem Db.Holds.readAs (h : db.Holds record) :
    record.ReadAs ⟨record.identification, record.roleRows.map (·.response db)⟩ where
  identification := rfl
  names := .of_eq (by simp [ISemanticProtocol.roleRows, RoleEntity.response])
  ids := by
    intro role hrole given hgiven hname id
    obtain ⟨row, hrow, rfl⟩ := List.mem_map.mp hrole
    obtain ⟨other, hother, rfl⟩ := List.mem_map.mp hrow
    obtain rfl : other = given := List.inj_on_of_nodup_map h.names hother hgiven hname
    rw [RoleEntity.response_ids]
    intro id hid
    obtain ⟨aas, haas, rfl⟩ := List.mem_map.mp hid
    exact h.registered other hother aas haas

/-- A stored protocol can be read. -/
theorem exists_readSemanticProtocolById {id : String} (h : id ∈ db.semanticProtocols.keys) :
    ∃ response, readSemanticProtocolById db id = .ok response := by
  obtain ⟨idType, hidType⟩ := Option.isSome_iff_exists.mp
    (AList.lookup_isSome.mpr (AList.mem_keys.mpr h))
  rw [readSemanticProtocolById, hidType]
  dsimp only
  split
  · exact ⟨_, rfl⟩
  · exact ⟨_, rfl⟩

/-- The list has what reading each of the protocols gives. -/
theorem mem_listAllSemanticProtocols {id : String} {response : Option ISemanticProtocol}
    (hread : readSemanticProtocolById db id = .ok response)
    (hid : id ∈ db.semanticProtocols.keys) :
    ∃ responses, listAllSemanticProtocols db = .ok responses ∧ response ∈ responses := by
  obtain ⟨responses, hlist, hmap⟩ := mapM_ok (f := readSemanticProtocolById db)
    fun _ hother => exists_readSemanticProtocolById hother
  refine ⟨responses, hlist, ?_⟩
  have hmem := List.mem_map_of_mem (f := readSemanticProtocolById db) hid
  rw [hmap, hread] at hmem
  obtain ⟨other, hother, heq⟩ := List.mem_map.mp hmem
  rwa [← Except.ok.inj heq]

/-- In every state the registry can reach, a protocol that is accepted with a role is
read as it was written, and one without roles as an empty object. -/
theorem protocol_read (aes : Aes) (calls : List Call) (db : Db)
    (hreached : exec (step aes) Db.empty calls = some db) (call : Call)
    (record : ISemanticProtocol) (hwritten : call.writtenProtocol = some record)
    (hsucceeds : call.succeeds aes db = true) :
    ∃ response responses,
      readSemanticProtocolById (call.run aes db) record.identification.id = .ok response ∧
      listAllSemanticProtocols (call.run aes db) = .ok responses ∧ response ∈ responses ∧
      if record.roles = [] then response = none
      else ∃ protocol, response = some protocol ∧ record.ReadAs protocol := by
  have hholds := Call.holds_of_succeeds (rolesLinked_of_exec hreached) hwritten hsucceeds
  have hstored : record.identification.id ∈ (call.run aes db).semanticProtocols.keys :=
    AList.mem_keys.mp (AList.lookup_isSome.mp (by rw [hholds.idType]; rfl))
  obtain ⟨responses, hlist, hmem⟩ := mem_listAllSemanticProtocols hholds.read hstored
  refine ⟨_, responses, hholds.read, hlist, hmem, ?_⟩
  split
  · rfl
  · exact ⟨_, rfl, hholds.readAs⟩

def sampleProtocol (roles : List IRole) : ISemanticProtocol where
  identification := ⟨"protocol", "IRI"⟩
  roles := roles

/-- With a role that a registered AAS is assigned to. -/
def assignedProtocol : ISemanticProtocol := sampleProtocol [⟨"Operator", [⟨"aas", "IRI"⟩]⟩]

def registeredAas : List Call :=
  [.createAASDescriptor (sampleEnv firstSalt)
    (sampleRecord "aas" "asset" (sampleEndpoint .undefined .undefined))]

theorem protocol_read_assigned :
    ∃ db response, exec (step sampleAes) Db.empty registeredAas = some db ∧
      readSemanticProtocolById ((Call.createSemanticProtocol (sampleEnv firstSalt)
        assignedProtocol).run sampleAes db) "protocol" = .ok (some response) ∧
      assignedProtocol.ReadAs response := by
  obtain ⟨response, responses, hread, -, -, hresponse⟩ := protocol_read sampleAes registeredAas
    _ rfl (.createSemanticProtocol (sampleEnv firstSalt) assignedProtocol) assignedProtocol rfl
    (by decide)
  rw [if_neg (by decide)] at hresponse
  obtain ⟨protocol, rfl, hreadAs⟩ := hresponse
  exact ⟨_, protocol, rfl, hread, hreadAs⟩

theorem not_protocol_read_without_roles :
    ¬ ∀ (aes : Aes) (calls : List Call) (db : Db), exec (step aes) Db.empty calls = some db →
      ∀ (call : Call) (record : ISemanticProtocol), call.writtenProtocol = some record →
        call.succeeds aes db = true →
        ∃ response responses,
          readSemanticProtocolById (call.run aes db) record.identification.id =
            .ok (some response) ∧
          record.ReadAs response ∧
          listAllSemanticProtocols (call.run aes db) = .ok responses ∧
          some response ∈ responses := by
  intro h
  obtain ⟨response, -, hread, -⟩ := h sampleAes [] Db.empty rfl
    (.createSemanticProtocol (sampleEnv firstSalt) (sampleProtocol [])) (sampleProtocol []) rfl
    (by decide)
  have hempty : readSemanticProtocolById ((Call.createSemanticProtocol (sampleEnv firstSalt)
      (sampleProtocol [])).run sampleAes Db.empty) "protocol" = .ok none := by decide
  cases hempty.symm.trans hread

end

end I40Aas.EndpointRegistry
