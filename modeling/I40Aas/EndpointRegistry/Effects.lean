import Mathlib.Data.List.Perm.Subperm
import I40Aas.EndpointRegistry.Calls

/-!
What a call leaves in the tables. A call that does not throw writes a descriptor or has one
of a few effects on protocols and roles. A call that throws has done nothing, or it has
saved an asset, or it has deleted roles that it could not replace.
-/

namespace I40Aas.EndpointRegistry

open I40Aas.Lib

/-! ### What a call that does not throw leaves -/

/-- The roles and the keys of the descriptors and protocols after a call that does not
throw, one constructor for each kind of effect. -/
inductive RoleEffect (db : Db) : Call → Db → Prop
  | written {call : Call} {env : CallEnv} {record : IAASDescriptor} {db' : Db} :
      call.written = some (env, record) → db'.roles = db.roles →
      db'.semanticProtocols = db.semanticProtocols →
      (∀ id ∈ db.aasDescriptors.keys, id ∈ db'.aasDescriptors.keys) → RoleEffect db call db'
  | deleted (env : CallEnv) (aasId : String) :
      RoleEffect db (.deleteAasDescriptorByAasId env aasId) (db.deleteAASDescriptor aasId)
  | created (env : CallEnv) {record : ISemanticProtocol} {db' : Db} :
      record.identification.id ∉ db.semanticProtocols.keys →
      db.saveSemanticProtocol record = some db' →
      RoleEffect db (.createSemanticProtocol env record) db'
  | upserted (env : CallEnv) {record : ISemanticProtocol} {db' : Db} :
      (db.deleteRoles record.identification.id).saveSemanticProtocol record = some db' →
      RoleEffect db (.upsertSemanticProtocol env record) db'
  | updated (env : CallEnv) {record : ISemanticProtocol} {db' : Db} :
      (db.deleteRoles record.identification.id).saveSemanticProtocol record = some db' →
      RoleEffect db (.updateSemanticProtocolById env record) db'
  | protocolDeleted (env : CallEnv) (protocolId : String) :
      RoleEffect db (.deleteSemanticProtocolById env protocolId)
        (db.deleteSemanticProtocol protocolId)
  | assigned (env : CallEnv) {sProtocol roleName : String} {aasIds : List IIdentifier}
      {role : RoleEntity} :
      db.findRole sProtocol roleName = some role →
      (∀ aas ∈ aasIds, aas.id ∈ db.aasDescriptors.keys) →
      RoleEffect db (.updateAASDescriptorsToRole env sProtocol roleName aasIds)
        (db.saveRole sProtocol roleName
          (db.aasDescriptors.keys.filter (· ∈ aasIds.map (·.id))))
  | removed (env : CallEnv) {sProtocol roleName aasIdToRemove : String} {role : RoleEntity} :
      db.findRole sProtocol roleName = some role →
      RoleEffect db (.deleteAASIdFromRole env sProtocol roleName aasIdToRemove)
        (db.saveRole sProtocol roleName (role.aasDescriptorIds.filter (· ≠ aasIdToRemove)))

section Effect

variable {aes : Aes} {db : Db} {call : Call}

/-- There are as many registered ids as the list is long exactly if all of the list are
registered and none is repeated. -/
theorem length_le_filter_iff {keys : List String} (hnodup : keys.Nodup) (ids : List String) :
    ids.length ≤ (keys.filter (· ∈ ids)).length ↔ ids.Nodup ∧ ∀ id ∈ ids, id ∈ keys := by
  constructor
  · intro hlen
    have hsub : keys.filter (· ∈ ids) ⊆ ids := fun k hk => by simpa using (List.mem_filter.mp hk).2
    have hperm := (List.subperm_of_subset (hnodup.filter _) hsub).perm_of_length_le hlen
    refine ⟨hperm.nodup (hnodup.filter _), fun id hid => ?_⟩
    exact (List.mem_filter.mp (hperm.mem_iff.mpr hid)).1
  · rintro ⟨hids, hregistered⟩
    refine (List.subperm_of_subset hids fun id hid => ?_).length_le
    exact List.mem_filter.mpr ⟨hregistered id hid, by simpa using hid⟩

theorem mem_keys_insert {κ ρ : Type*} [DecidableEq κ] {t : Table κ ρ} {k k' : κ} {row : ρ} :
    k ∈ (t.insert k' row).keys ↔ k = k' ∨ k ∈ t.keys := by
  rw [← AList.mem_keys, ← AList.mem_keys, AList.mem_insert]

/-- Writing a descriptor leaves roles and protocols alone and unregisters nobody, whether
it succeeds or not. -/
theorem RoleEffect.of_written {env : CallEnv} {record : IAASDescriptor}
    (h : call.written = some (env, record)) : RoleEffect db call (call.run aes db) := by
  cases heffect : takesEffect db call with
  | true =>
      have hsaves := @Call.run_of_takesEffect aes _ _ _ _ h heffect
      refine .written h hsaves.roles hsaves.semanticProtocols fun id hid => ?_
      rw [hsaves.aasDescriptors]
      exact mem_keys_insert.mpr (.inr hid)
  | false =>
      rw [Call.run_of_not_takesEffect h heffect]
      split <;> exact .written h rfl rfl fun _ => id

theorem RoleEffect.of_succeeds (h : call.succeeds aes db = true) :
    RoleEffect db call (call.run aes db) := by
  cases call with
  | createAASDescriptor env record => exact .of_written rfl
  | upsertAASDescriptor env record => exact .of_written rfl
  | updateAasDescriptorByAasId env record => exact .of_written rfl
  | deleteAasDescriptorByAasId env aasId =>
      simp only [Call.succeeds, Call.run, EndpointRegistry.deleteAasDescriptorByAasId] at h ⊢
      split_ifs at h ⊢
      · exact .deleted env aasId
      all_goals cases h
  | createSemanticProtocol env record =>
      simp only [Call.succeeds, Call.run, EndpointRegistry.createSemanticProtocol] at h ⊢
      split_ifs at h ⊢ with h0 hid
      · cases h
      · exact .created env hid (finish_isOk h)
      · cases h
  | upsertSemanticProtocol env record =>
      simp only [Call.succeeds, Call.run, EndpointRegistry.upsertSemanticProtocol,
        replaceRoles] at h ⊢
      split_ifs at h ⊢
      · exact .upserted env (finish_isOk h)
      · cases h
  | updateSemanticProtocolById env record =>
      simp only [Call.succeeds, Call.run, EndpointRegistry.updateSemanticProtocolById,
        replaceRoles] at h ⊢
      split_ifs at h ⊢
      · exact .updated env (finish_isOk h)
      all_goals cases h
  | deleteSemanticProtocolById env semanticProtocolId =>
      simp only [Call.succeeds, Call.run, EndpointRegistry.deleteSemanticProtocolById] at h ⊢
      split_ifs at h ⊢
      · exact .protocolDeleted env semanticProtocolId
      all_goals cases h
  | updateAASDescriptorsToRole env sProtocol roleName aasIds =>
      cases hrole : db.findRole sProtocol roleName with
      | none =>
          simp only [Call.succeeds, EndpointRegistry.updateAASDescriptorsToRole, hrole] at h
          split at h <;> cases h
      | some role =>
          simp only [Call.succeeds, Call.run, EndpointRegistry.updateAASDescriptorsToRole,
            hrole] at h ⊢
          split_ifs at h ⊢ with h0 h1 hlen
          · cases h
          · rw [← Option.some.inj (finish_isOk h)]
            refine .assigned env hrole fun aas haas => ?_
            have hregistered := (length_le_filter_iff db.aasDescriptors.keys_nodup
              (aasIds.map (·.id))).mp (by simpa using hlen)
            exact hregistered.2 aas.id (List.mem_map_of_mem haas)
          all_goals cases h
  | deleteAASIdFromRole env sProtocol roleName aasIdToRemove =>
      cases hrole : db.findRole sProtocol roleName with
      | none =>
          simp only [Call.succeeds, EndpointRegistry.deleteAASIdFromRole, hrole] at h
          split at h <;> cases h
      | some role =>
          simp only [Call.succeeds, Call.run, EndpointRegistry.deleteAASIdFromRole, hrole] at h ⊢
          split_ifs at h ⊢
          · rw [← Option.some.inj (finish_isOk h)]
            exact .removed env hrole
          · cases h

end Effect

/-! ### What a call that throws leaves -/

section Throws

variable {aes : Aes} {db : Db} {call : Call}

theorem replaceRoles_eq_of_throws {answersDelete answersSave : Bool} {record : ISemanticProtocol}
    (h : (replaceRoles db answersDelete answersSave record).1.isOk = false) :
    (replaceRoles db answersDelete answersSave record).2 = db ∨
      (replaceRoles db answersDelete answersSave record).2 =
        db.deleteRoles record.identification.id := by
  unfold replaceRoles at h ⊢
  split at h
  · rename_i hdelete
    rw [if_pos hdelete]
    exact .inr (finish_eq_of_throws h)
  · rename_i hdelete
    rw [if_neg hdelete]
    exact .inl rfl

/-- What a call that throws leaves. -/
inductive Thrown (db : Db) : Db → Prop
  | nothing : Thrown db db
  | asset (asset : IIdentifier) : Thrown db (db.saveAsset asset)
  | roles (protocolId : String) : Thrown db (db.deleteRoles protocolId)

theorem Thrown.of_eq {db' : Db} (h : db' = db) : Thrown db db' := by
  rw [h]
  exact .nothing

theorem Thrown.of_replaceRoles {answersDelete answersSave : Bool} {record : ISemanticProtocol}
    (h : (replaceRoles db answersDelete answersSave record).1.isOk = false) :
    Thrown db (replaceRoles db answersDelete answersSave record).2 := by
  rcases replaceRoles_eq_of_throws h with heq | heq
  · exact .of_eq heq
  · rw [heq]
    exact .roles _

theorem Thrown.of_not_succeeds (h : call.succeeds aes db = false) :
    Thrown db (call.run aes db) := by
  cases hwritten : call.written with
  | some written =>
      obtain ⟨env, record⟩ := written
      rw [Call.succeeds_eq_takesEffect hwritten] at h
      rw [Call.run_of_not_takesEffect hwritten h]
      split
      · exact .asset _
      · exact .nothing
  | none =>
      cases call with
      | createAASDescriptor env record => cases hwritten
      | upsertAASDescriptor env record => cases hwritten
      | updateAasDescriptorByAasId env record => cases hwritten
      | deleteAasDescriptorByAasId env aasId =>
          simp only [Call.succeeds, Call.run, EndpointRegistry.deleteAasDescriptorByAasId] at h ⊢
          split_ifs at h ⊢
          · cases h
          all_goals exact .nothing
      | createSemanticProtocol env record =>
          simp only [Call.succeeds, Call.run, EndpointRegistry.createSemanticProtocol] at h ⊢
          split_ifs at h ⊢
          · exact .nothing
          · exact .of_eq (finish_eq_of_throws h)
          · exact .nothing
      | upsertSemanticProtocol env record => exact .of_replaceRoles h
      | updateSemanticProtocolById env record =>
          simp only [Call.succeeds, Call.run, EndpointRegistry.updateSemanticProtocolById] at h ⊢
          split_ifs at h ⊢
          · exact .of_replaceRoles h
          all_goals exact .nothing
      | deleteSemanticProtocolById env semanticProtocolId =>
          simp only [Call.succeeds, Call.run, EndpointRegistry.deleteSemanticProtocolById] at h ⊢
          split_ifs at h ⊢
          · cases h
          all_goals exact .nothing
      | updateAASDescriptorsToRole env sProtocol roleName aasIds =>
          simp only [Call.succeeds, Call.run, EndpointRegistry.updateAASDescriptorsToRole] at h ⊢
          split at h
          · rename_i h0
            rw [if_pos h0]
            cases hrole : db.findRole sProtocol roleName with
            | none => exact .nothing
            | some role =>
                simp only [hrole] at h ⊢
                split_ifs at h ⊢
                · exact .nothing
                · exact .of_eq (finish_eq_of_throws h)
                · exact .nothing
          · rename_i h0
            rw [if_neg h0]
            exact .nothing
      | deleteAASIdFromRole env sProtocol roleName aasIdToRemove =>
          simp only [Call.succeeds, Call.run, EndpointRegistry.deleteAASIdFromRole] at h ⊢
          split at h
          · rename_i h0
            rw [if_pos h0]
            cases hrole : db.findRole sProtocol roleName with
            | none => exact .nothing
            | some role =>
                simp only [hrole] at h ⊢
                exact .of_eq (finish_eq_of_throws h)
          · rename_i h0
            rw [if_neg h0]
            exact .nothing

end Throws

end I40Aas.EndpointRegistry
