import I40Aas.EndpointRegistry.Reachable

/-!
What is left when a descriptor has been deleted. Its row goes, and with it its rows in
the two join tables. Its asset and its endpoints stay, but the asset is free again, since
no other descriptor has it, so the descriptor can be registered anew.
-/

namespace I40Aas.EndpointRegistry

open I40Aas.Lib

/-- The tables `db'` are those of `db` without the descriptor, which was stored as `row`. -/
structure Deleted (aes : Aes) (db : Db) (aasId : String) (row : AASDescriptorEntity)
    (db' : Db) : Prop where
  read : readAASDescriptorByAasId aes db' aasId =
    .error (.http404Error ("No AASDescriptor found with aasId: " ++ aasId))
  list : ∃ ds, listAllAASDescriptors aes db' = .ok ds ∧
    ∀ id, id ∈ ds.map (·.identification.id) ↔ id ∈ db.aasDescriptors.keys ∧ id ≠ aasId
  role : ∀ p r ds, readAASDescriptorsBySemanticProtocolAndRole aes db' p r = .ok ds →
    aasId ∉ ds.map (·.identification.id)
  others : ∀ id ≠ aasId, readAASDescriptorByAasId aes db' id = readAASDescriptorByAasId aes db id
  semanticProtocols : db'.semanticProtocols = db.semanticProtocols
  roles : db'.roles.map RoleEntity.uniqueKey = db.roles.map RoleEntity.uniqueKey
  assigned : ∀ p r, (db'.findRole p r).map RoleEntity.ids =
    (db.findRole p r).map (RoleEntity.ids · \ {aasId})
  deleteAgain : ∀ env : CallEnv, env.answers 0 = true →
    deleteAasDescriptorByAasId env db' aasId =
      (.error (.http422Error ("No Resource with this aasId found in Database: " ++ aasId)), db')
  endpointsOnce : row.endpoints.Nodup
  createAgain : ∀ (env : CallEnv) (record : IAASDescriptor), env.answers 0 = true →
    env.answers 1 = true → record.identification.id = aasId → record.asset.id = row.asset →
    (record.endpoints.map IEndpoint.key).Nodup →
    (createAASDescriptor aes env db' record).1.isOk = true ∧
      ∀ p r role, (createAASDescriptor aes env db' record).2.findRole p r = some role →
        aasId ∉ role.ids

section

variable {aes : Aes} {db : Db} {aasId : String} {row : AASDescriptorEntity}

theorem Db.mem_keys_delete {id : String} : id ∈ (db.deleteAASDescriptor aasId).aasDescriptors.keys ↔
    id ∈ db.aasDescriptors.keys ∧ id ≠ aasId := by
  rw [← AList.mem_keys, ← AList.mem_keys]
  exact AList.mem_erase.trans and_comm

theorem Db.findRole_delete (p r : String) :
    (db.deleteAASDescriptor aasId).findRole p r = (db.findRole p r).map fun role =>
      { role with aasDescriptorIds := role.aasDescriptorIds.filter (· ≠ aasId) } :=
  Db.findRole_of_map (f := fun role =>
    { role with aasDescriptorIds := role.aasDescriptorIds.filter (· ≠ aasId) })
    (fun _ => ⟨rfl, rfl⟩) rfl p r

theorem Db.assigned_delete (p r : String) :
    ((db.deleteAASDescriptor aasId).findRole p r).map RoleEntity.ids =
      (db.findRole p r).map (RoleEntity.ids · \ {aasId}) := by
  rw [Db.findRole_delete, Option.map_map]
  congr 1
  funext role
  exact role.ids_filter aasId

theorem read_delete_of_ne {id : String} (h : id ≠ aasId) :
    readAASDescriptorByAasId aes (db.deleteAASDescriptor aasId) id =
      readAASDescriptorByAasId aes db id := by
  have hlookup : (db.deleteAASDescriptor aasId).aasDescriptors.lookup id =
      db.aasDescriptors.lookup id := AList.lookup_erase_ne h
  rw [readAASDescriptorByAasId, readAASDescriptorByAasId, hlookup]
  rfl

theorem Db.RolesLinked.delete (h : db.RolesLinked) (env : CallEnv) :
    (db.deleteAASDescriptor aasId).RolesLinked := h.step (.deleted env aasId)

/-- No descriptor is left that has the asset. -/
theorem Db.assetTaken_delete (hunique : db.AssetsUnique)
    (hrow : db.aasDescriptors.lookup aasId = some row) :
    (db.deleteAASDescriptor aasId).assetTaken aasId row.asset = false := by
  by_contra htaken
  obtain ⟨id, row', hrow', hne, hasset⟩ := Db.assetTaken_iff.mp (by simpa using htaken)
  have hold : db.aasDescriptors.lookup id = some row' := by
    rwa [Db.deleteAASDescriptor, AList.lookup_erase_ne hne] at hrow'
  exact hne (hunique id aasId row' row hold hrow hasset)

/-- The descriptor can be registered again, and has no role then. -/
theorem create_of_delete (hunique : db.AssetsUnique)
    (hrow : db.aasDescriptors.lookup aasId = some row) {env : CallEnv} {record : IAASDescriptor}
    (h0 : env.answers 0 = true) (h1 : env.answers 1 = true)
    (hid : record.identification.id = aasId) (hasset : record.asset.id = row.asset)
    (hkeys : (record.endpoints.map IEndpoint.key).Nodup) :
    (createAASDescriptor aes env (db.deleteAASDescriptor aasId) record).1.isOk = true ∧
      ∀ p r role, (createAASDescriptor aes env (db.deleteAASDescriptor aasId) record).2.findRole
        p r = some role → aasId ∉ role.ids := by
  subst hid
  have hfree : (db.deleteAASDescriptor record.identification.id).aasDescriptors.lookup
      record.identification.id = none := AList.lookup_erase _ _
  have htakes : (db.deleteAASDescriptor record.identification.id).refusesRecord record = false := by
    refine Db.refuses_eq_false_iff.mpr ⟨?_, Db.joinsTwice_of_nodup hkeys _ _⟩
    rw [hasset]
    exact Db.assetTaken_delete hunique hrow
  have heffect : takesEffect (db.deleteAASDescriptor record.identification.id)
      (.createAASDescriptor env record) = true := by
    simp [takesEffect, h0, h1, hfree, htakes]
  constructor
  · exact (Call.succeeds_eq_takesEffect rfl).trans heffect
  · intro p r role hrole
    have hroles := (@Call.run_of_takesEffect aes _ (.createAASDescriptor env record) _ _ rfl
      heffect).roles
    change ((Call.createAASDescriptor env record).run aes _).findRole p r = _ at hrole
    rw [Db.findRole, hroles] at hrole
    change (db.deleteAASDescriptor _).findRole p r = some role at hrole
    rw [Db.findRole_delete] at hrole
    obtain ⟨old, -, rfl⟩ := Option.map_eq_some_iff.mp hrole
    simp

end

/-- In every state the registry can reach, deleting a registered descriptor deletes it
and nothing else, and makes room for it again. -/
theorem deleted_of_delete (aes : Aes) (calls : List Call) (db : Db)
    (hreached : exec (step aes) Db.empty calls = some db) (env : CallEnv) (aasId : String)
    (row : AASDescriptorEntity) (hrow : db.aasDescriptors.lookup aasId = some row)
    (hdeleted : (deleteAasDescriptorByAasId env db aasId).1 = .ok ()) :
    Deleted aes db aasId row (deleteAasDescriptorByAasId env db aasId).2 := by
  have hmem : aasId ∈ db.aasDescriptors.keys :=
    AList.mem_keys.mp (AList.lookup_isSome.mp (by simp [hrow]))
  have hlinked : (db.deleteAASDescriptor aasId).Linked := by
    have hstep := @Db.Linked.step aes db (linked_of_exec hreached)
      (.deleteAasDescriptorByAasId ⟨fun _ => true, env.random⟩ aasId)
    simpa [Call.run, deleteAasDescriptorByAasId, hmem] using hstep
  have hroles : (db.deleteAASDescriptor aasId).RolesLinked :=
    (rolesLinked_of_exec hreached).delete env
  have hunique := assetsUnique_of_exec hreached
  have hgone : aasId ∉ (db.deleteAASDescriptor aasId).aasDescriptors.keys :=
    fun h => (Db.mem_keys_delete.mp h).2 rfl
  have htables : (deleteAasDescriptorByAasId env db aasId).2 = db.deleteAASDescriptor aasId := by
    unfold deleteAasDescriptorByAasId at hdeleted ⊢
    split_ifs at hdeleted ⊢
    rfl
  rw [htables]
  exact {
    read := by
      rw [readAASDescriptorByAasId, Db.deleteAASDescriptor, AList.lookup_erase]
    list := by
      obtain ⟨ds, hds, -, hids, -⟩ := list_of_linked aes hlinked
      exact ⟨ds, hds, fun id => (hids id).trans Db.mem_keys_delete⟩
    role := by
      intro p r ds hds hid
      cases hrole : (db.deleteAASDescriptor aasId).findRole p r with
      | none =>
          rw [readAASDescriptorsBySemanticProtocolAndRole, hrole] at hds
          cases hds
      | some role =>
          obtain ⟨ds', hds', -, hids, -⟩ := read_of_findRole aes hlinked hroles hrole
          obtain rfl := Except.ok.inj (hds.symm.trans hds')
          exact hgone ((hroles role (Db.mem_roles_of_findRole hrole).1).2 _ ((hids aasId).mp hid))
    others := fun id hne => read_delete_of_ne hne
    semanticProtocols := rfl
    roles := by simp [Db.deleteAASDescriptor, RoleEntity.uniqueKey]
    assigned := Db.assigned_delete
    deleteAgain := by
      intro env' h0
      rw [deleteAasDescriptorByAasId, if_pos h0, if_neg hgone]
    endpointsOnce := endpointsOnce_of_exec hreached aasId row hrow
    createAgain := fun env' record h0 h1 hid hasset hkeys =>
      create_of_delete hunique hrow h0 h1 hid hasset hkeys }

/-- A descriptor with a role. -/
def assignedCalls : List Call :=
  [.createAASDescriptor (sampleEnv firstSalt)
      (sampleRecord "aas" "asset" (sampleEndpoint (.string "alice") (.string "secret"))),
    .createSemanticProtocol (sampleEnv firstSalt)
      ⟨⟨"protocol", "IRI"⟩, [⟨"Operator", [⟨"aas", "IRI"⟩]⟩]⟩]

theorem deleted_of_delete_assigned :
    Deleted sampleAes (assignedCalls.foldl (Call.run sampleAes) Db.empty) "aas"
      ⟨"IRI", "asset", none, [("http://aas.example", "http")]⟩
      (deleteAasDescriptorByAasId (sampleEnv firstSalt)
        (assignedCalls.foldl (Call.run sampleAes) Db.empty) "aas").2 :=
  deleted_of_delete sampleAes assignedCalls _ rfl (sampleEnv firstSalt) "aas" _ (by decide)
    (by decide)

end I40Aas.EndpointRegistry
