import Mathlib.Data.List.Dedup
import I40Aas.EndpointRegistry.Registry

/-!
What a call can do to the descriptors, assets and endpoints, said once.
`takesEffect` tells from the request, the tables and the answers of the database
whether a writing call saves its descriptor; `Call.run_of_takesEffect` and
`Call.run_of_not_takesEffect` say what it leaves in either case, and
`Call.sameDescriptors` what the other calls do.
-/

namespace I40Aas.EndpointRegistry

open I40Aas.Lib

/-- The descriptor a call writes, and what it meets outside. -/
def Call.written : Call → Option (CallEnv × IAASDescriptor)
  | .createAASDescriptor env record => some (env, record)
  | .upsertAASDescriptor env record => some (env, record)
  | .updateAasDescriptorByAasId env record => some (env, record)
  | _ => none

/-- The database refuses the rows of the record. -/
def Db.refusesRecord (db : Db) (record : IAASDescriptor) : Bool :=
  db.refuses record.identification.id record.asset.id (record.endpoints.map IEndpoint.key)

/-- The call gets as far as saving its descriptor, and the database takes it. -/
def takesEffect (db : Db) : Call → Bool
  | .createAASDescriptor env record =>
      env.answers 0 && env.answers 1 &&
        (db.aasDescriptors.lookup record.identification.id).isNone &&
        !db.refusesRecord record
  | .upsertAASDescriptor env record =>
      env.answers 0 && env.answers 1 &&
        !db.refusesRecord record
  | .updateAasDescriptorByAasId env record =>
      env.answers 0 && env.answers 1 &&
        (db.aasDescriptors.lookup record.identification.id).isSome &&
        !db.refusesRecord record
  | _ => false

/-- The call saves the asset of its descriptor in a statement of its own. -/
def savesAsset : Call → Bool
  | .upsertAASDescriptor env _ => env.answers 0
  | _ => false

section Calls

variable {aes : Aes} {db : Db} {call : Call} {env : CallEnv} {record : IAASDescriptor}

theorem finish_of_none {α : Type*} (answers : Bool) (db : Db) (value : α) :
    finish answers none db value = (.error .queryFailedError, db) := by
  cases answers <;> rfl

theorem finish_of_some {α : Type*} (answers : Bool) (saved db : Db) (value : α) :
    finish answers (some saved) db value =
      if answers then (.ok value, saved) else (.error .queryFailedError, db) := by
  cases answers <;> rfl

theorem finish_isOk_iff {α : Type*} {answers : Bool} {saved : Option Db} {db₀ : Db} {value : α} :
    (finish answers saved db₀ value).1.isOk = true ↔ answers = true ∧ saved.isSome = true := by
  cases saved with
  | none => simp [finish_of_none, Except.isOk, Except.toBool]
  | some db' => cases answers <;> simp [finish, Except.isOk, Except.toBool]

/-- A call that ends with a save succeeds only by saving. -/
theorem finish_isOk {α : Type*} {answers : Bool} {saved : Option Db} {db₀ : Db} {value : α}
    (h : (finish answers saved db₀ value).1.isOk = true) :
    saved = some (finish answers saved db₀ value).2 := by
  obtain ⟨hanswers, hsome⟩ := finish_isOk_iff.mp h
  obtain ⟨db', rfl⟩ := Option.isSome_iff_exists.mp hsome
  rw [finish_of_some, if_pos hanswers]

theorem finish_eq_of_throws {α : Type*} {answers : Bool} {saved : Option Db} {db₀ : Db} {value : α}
    (h : (finish answers saved db₀ value).1.isOk = false) :
    (finish answers saved db₀ value).2 = db₀ := by
  cases saved with
  | none => rw [finish_of_none]
  | some db' =>
      rw [finish_of_some] at h ⊢
      split at h
      · cases h
      · rename_i hanswers
        rw [if_neg hanswers]

/-- Saving the asset beforehand makes no difference to the saving of the descriptor. -/
theorem Db.saveAASDescriptor_saveAsset (db : Db) (identification asset : IIdentifier)
    (signature : Field) (endpoints : List IEndpoint) :
    (db.saveAsset asset).saveAASDescriptor identification asset signature endpoints =
      db.saveAASDescriptor identification asset signature endpoints := by
  have hinsert : (db.assets.insert asset.id asset.idType).insert asset.id asset.idType =
      db.assets.insert asset.id asset.idType := AList.insert_insert _
  have hrefuses : (db.saveAsset asset).refuses identification.id asset.id
      (endpoints.map IEndpoint.key) = db.refuses identification.id asset.id
        (endpoints.map IEndpoint.key) := rfl
  unfold Db.saveAASDescriptor
  rw [hrefuses]
  split
  · rfl
  · simp only [Db.saveAsset, hinsert]

/-- What a descriptor that is saved leaves in the tables. -/
structure Db.Saves (db : Db) (identification asset : IIdentifier) (signature : Field)
    (endpoints : List IEndpoint) (db' : Db) : Prop where
  free : db.assetTaken identification.id asset.id = false
  joins : db.joinsTwice identification.id (endpoints.map IEndpoint.key) = false
  assets : db'.assets = db.assets.insert asset.id asset.idType
  aasDescriptors : db'.aasDescriptors = db.aasDescriptors.insert identification.id
    { idType := identification.idType
      asset := asset.id
      signature := signature.assign
        ((db.aasDescriptors.lookup identification.id).bind (·.signature))
      endpoints := (endpoints.map IEndpoint.key).dedup }
  endpoints : db'.endpoints = saveAll IEndpoint.key IEndpoint.row db.endpoints endpoints
  semanticProtocols : db'.semanticProtocols = db.semanticProtocols
  roles : db'.roles = db.roles

theorem Db.saves_of_eq_some {identification asset : IIdentifier} {signature : Field}
    {endpoints : List IEndpoint} {db' : Db}
    (h : db.saveAASDescriptor identification asset signature endpoints = some db') :
    db.Saves identification asset signature endpoints db' := by
  unfold Db.saveAASDescriptor at h
  split at h
  · cases h
  · rename_i hrefuses
    obtain rfl := Option.some.inj h
    obtain ⟨hfree, hjoins⟩ := Db.refuses_eq_false_iff.mp (by simpa using hrefuses)
    exact ⟨hfree, hjoins, rfl, rfl, rfl, rfl, rfl⟩

theorem map_key_encryptEndpoints (random : ℕ → Random) (endpoints : List IEndpoint) :
    (encryptEndpoints aes random endpoints).map IEndpoint.key = endpoints.map IEndpoint.key := by
  have hkey : ∀ p : IEndpoint × ℕ,
      (p.1.encryptCredentials aes (random p.2)).key = p.1.key := by
    intro p
    obtain ⟨user, password, -, -, heq⟩ := p.1.encryptCredentials_spec aes (random p.2)
    rw [heq]
    rfl
  rw [encryptEndpoints, List.map_map]
  refine (List.map_congr_left fun p _ => hkey p).trans ?_
  change List.map (IEndpoint.key ∘ Prod.fst) endpoints.zipIdx = _
  rw [← List.map_map, List.zipIdx_map_fst]

section Finish

variable {α : Type*} {answers : Bool} {identification asset : IIdentifier} {signature : Field}
  {endpoints : List IEndpoint} {saved : Db} {value : α}

theorem finish_saveAASDescriptor (hanswers : answers = true)
    (hrefuses : db.refuses identification.id asset.id (endpoints.map IEndpoint.key) = false) :
    db.saveAASDescriptor identification asset signature endpoints =
      some (finish answers
        (db.saveAASDescriptor identification asset signature endpoints) saved value).2 := by
  rw [Db.saveAASDescriptor, hrefuses, hanswers]
  rfl

theorem finish_saveAASDescriptor_refused
    (h : (answers && !db.refuses identification.id asset.id (endpoints.map IEndpoint.key)) =
      false) :
    (finish answers
      (db.saveAASDescriptor identification asset signature endpoints) saved value).2 = saved := by
  cases answers with
  | false => rfl
  | true =>
      have hrefuses : db.refuses identification.id asset.id (endpoints.map IEndpoint.key) = true :=
        by simpa using h
      rw [Db.saveAASDescriptor, if_pos hrefuses]
      rfl

end Finish

/-- Encrypting the endpoints does not change whether the database refuses them. -/
theorem refuses_encryptEndpoints {random : ℕ → Random} :
    db.refuses record.identification.id record.asset.id
        ((encryptEndpoints aes random record.endpoints).map IEndpoint.key) =
      db.refusesRecord record := by
  rw [map_key_encryptEndpoints, Db.refusesRecord]

/-- The `idType` a writing call saves: an update keeps the stored one. -/
def Call.savedIdType (db : Db) (record : IAASDescriptor) : Call → String
  | updateAasDescriptorByAasId _ _ =>
      (db.aasDescriptors.lookup record.identification.id).elim record.identification.idType
        (·.idType)
  | _ => record.identification.idType

/-- A writing call that takes effect saves its descriptor with the encrypted
endpoints. -/
theorem Call.run_of_takesEffect (h : call.written = some (env, record))
    (heffect : takesEffect db call = true) :
    db.Saves ⟨record.identification.id, call.savedIdType db record⟩ record.asset
      record.signature (encryptEndpoints aes env.random record.endpoints) (call.run aes db) := by
  refine Db.saves_of_eq_some ?_
  cases call with
  | createAASDescriptor env record =>
      obtain ⟨rfl, rfl⟩ := Prod.mk.inj (Option.some.inj h)
      simp only [takesEffect, Bool.and_eq_true, Bool.not_eq_true', Option.isNone_iff_eq_none]
        at heffect
      obtain ⟨⟨⟨h0, h1⟩, hnone⟩, hrefuses⟩ := heffect
      simp only [Call.run, EndpointRegistry.createAASDescriptor, h0, if_true, hnone]
      exact finish_saveAASDescriptor h1 (refuses_encryptEndpoints.trans hrefuses)
  | upsertAASDescriptor env record =>
      obtain ⟨rfl, rfl⟩ := Prod.mk.inj (Option.some.inj h)
      simp only [takesEffect, Bool.and_eq_true, Bool.not_eq_true'] at heffect
      obtain ⟨⟨h0, h1⟩, hrefuses⟩ := heffect
      simp only [Call.run, EndpointRegistry.upsertAASDescriptor, h0, if_true,
        Db.saveAASDescriptor_saveAsset]
      exact finish_saveAASDescriptor h1 (refuses_encryptEndpoints.trans hrefuses)
  | updateAasDescriptorByAasId env record =>
      obtain ⟨rfl, rfl⟩ := Prod.mk.inj (Option.some.inj h)
      simp only [takesEffect, Bool.and_eq_true, Bool.not_eq_true', Option.isSome_iff_exists]
        at heffect
      obtain ⟨⟨⟨h0, h1⟩, loaded, hloaded⟩, hrefuses⟩ := heffect
      simp only [Call.run, EndpointRegistry.updateAasDescriptorByAasId, h0, if_true, hloaded,
        Call.savedIdType, Option.elim_some]
      exact finish_saveAASDescriptor h1 (refuses_encryptEndpoints.trans hrefuses)
  | _ => cases h

/-- A writing call that does not take effect changes nothing but possibly the
asset, which an upsert saves beforehand. -/
theorem Call.run_of_not_takesEffect (h : call.written = some (env, record))
    (heffect : takesEffect db call = false) :
    call.run aes db = if savesAsset call then db.saveAsset record.asset else db := by
  cases call with
  | createAASDescriptor env record =>
      obtain ⟨rfl, rfl⟩ := Prod.mk.inj (Option.some.inj h)
      simp only [Call.run, EndpointRegistry.createAASDescriptor, savesAsset]
      cases h0 : env.answers 0 with
      | false => rfl
      | true =>
          cases hlookup : db.aasDescriptors.lookup record.identification.id with
          | none =>
              refine finish_saveAASDescriptor_refused ?_
              rw [refuses_encryptEndpoints]
              simpa [takesEffect, h0, hlookup] using heffect
          | some row => rfl
  | upsertAASDescriptor env record =>
      obtain ⟨rfl, rfl⟩ := Prod.mk.inj (Option.some.inj h)
      have hsaves : savesAsset (.upsertAASDescriptor env record) = env.answers 0 := rfl
      simp only [Call.run, EndpointRegistry.upsertAASDescriptor, hsaves]
      by_cases h0 : env.answers 0 = true
      · rw [if_pos h0, if_pos h0, Db.saveAASDescriptor_saveAsset]
        refine finish_saveAASDescriptor_refused ?_
        rw [refuses_encryptEndpoints]
        simpa [takesEffect, h0] using heffect
      · rw [if_neg h0, if_neg h0]
  | updateAasDescriptorByAasId env record =>
      obtain ⟨rfl, rfl⟩ := Prod.mk.inj (Option.some.inj h)
      simp only [Call.run, EndpointRegistry.updateAasDescriptorByAasId, savesAsset]
      cases h0 : env.answers 0 with
      | false => rfl
      | true =>
          cases hlookup : db.aasDescriptors.lookup record.identification.id with
          | none => rfl
          | some row =>
              refine finish_saveAASDescriptor_refused ?_
              rw [refuses_encryptEndpoints]
              simpa [takesEffect, h0, hlookup] using heffect
  | _ => cases h

theorem Db.saveAASDescriptor_isSome_iff {identification asset : IIdentifier} {signature : Field}
    {endpoints : List IEndpoint} :
    (db.saveAASDescriptor identification asset signature endpoints).isSome = true ↔
      db.refuses identification.id asset.id (endpoints.map IEndpoint.key) = false := by
  unfold Db.saveAASDescriptor
  cases db.refuses identification.id asset.id (endpoints.map IEndpoint.key) <;> simp

/-- A writing call throws exactly when it does not take effect. -/
theorem Call.succeeds_eq_takesEffect (h : call.written = some (env, record)) :
    call.succeeds aes db = takesEffect db call := by
  rw [Bool.eq_iff_iff]
  cases call with
  | createAASDescriptor env record =>
      simp only [Call.succeeds, EndpointRegistry.createAASDescriptor]
      cases h0 : env.answers 0 with
      | false => simp [takesEffect, h0, Except.isOk, Except.toBool]
      | true =>
          cases hlookup : db.aasDescriptors.lookup record.identification.id with
          | none =>
              rw [if_pos rfl, finish_isOk_iff, Db.saveAASDescriptor_isSome_iff,
                refuses_encryptEndpoints]
              simp [takesEffect, h0, hlookup]
          | some row => simp [takesEffect, hlookup, Except.isOk, Except.toBool]
  | upsertAASDescriptor env record =>
      simp only [Call.succeeds, EndpointRegistry.upsertAASDescriptor]
      cases h0 : env.answers 0 with
      | false => simp [takesEffect, h0, Except.isOk, Except.toBool]
      | true =>
          rw [if_pos rfl, Db.saveAASDescriptor_saveAsset, finish_isOk_iff,
            Db.saveAASDescriptor_isSome_iff, refuses_encryptEndpoints]
          simp [takesEffect, h0]
  | updateAasDescriptorByAasId env record =>
      simp only [Call.succeeds, EndpointRegistry.updateAasDescriptorByAasId]
      cases h0 : env.answers 0 with
      | false => simp [takesEffect, h0, Except.isOk, Except.toBool]
      | true =>
          cases hlookup : db.aasDescriptors.lookup record.identification.id with
          | none => simp [takesEffect, hlookup, Except.isOk, Except.toBool]
          | some row =>
              rw [if_pos rfl, finish_isOk_iff, Db.saveAASDescriptor_isSome_iff,
                refuses_encryptEndpoints]
              simp [takesEffect, h0, hlookup]
  | _ => cases h

/-- The first endpoint of a request with the given key, and its index. -/
def firstListed (endpoints : List IEndpoint) (key : EndpointKey) : Option (IEndpoint × ℕ) :=
  endpoints.zipIdx.find? fun p => p.1.key = key

theorem find?_encryptEndpoints (random : ℕ → Random) (endpoints : List IEndpoint)
    (key : EndpointKey) :
    ((encryptEndpoints aes random endpoints).find? fun e => e.key = key) =
      (firstListed endpoints key).map fun p => p.1.encryptCredentials aes (random p.2) := by
  rw [encryptEndpoints, List.find?_map, firstListed]
  congr 2
  funext p
  obtain ⟨user, password, -, -, heq⟩ := p.1.encryptCredentials_spec aes (random p.2)
  simp only [Function.comp_apply, heq]
  rfl

/-- The row of a key is what the first endpoint with the key makes of the old row, and the
other rows are left alone. -/
theorem Db.Saves.lookup_endpoints {identification asset : IIdentifier} {signature : Field}
    {random : ℕ → Random} {endpoints : List IEndpoint} {db' : Db}
    (h : db.Saves identification asset signature (encryptEndpoints aes random endpoints) db')
    (key : EndpointKey) :
    db'.endpoints.lookup key =
      match firstListed endpoints key with
      | some (e, i) =>
          some ((e.encryptCredentials aes (random i)).row (db.endpoints.lookup key))
      | none => db.endpoints.lookup key := by
  rw [h.endpoints, lookup_saveAll, find?_encryptEndpoints]
  cases firstListed endpoints key <;> rfl

theorem Call.lookup_endpoints_of_takesEffect (h : call.written = some (env, record))
    (heffect : takesEffect db call = true) (key : EndpointKey) :
    (call.run aes db).endpoints.lookup key =
      match firstListed record.endpoints key with
      | some (e, i) =>
          some ((e.encryptCredentials aes (env.random i)).row (db.endpoints.lookup key))
      | none => db.endpoints.lookup key :=
  (Call.run_of_takesEffect h heffect).lookup_endpoints key

/-- Descriptors, assets and endpoints are the same. -/
structure Db.SameDescriptors (db db' : Db) : Prop where
  assets : db'.assets = db.assets
  endpoints : db'.endpoints = db.endpoints
  aasDescriptors : db'.aasDescriptors = db.aasDescriptors

theorem Db.SameDescriptors.refl (db : Db) : db.SameDescriptors db := ⟨rfl, rfl, rfl⟩

theorem Db.SameDescriptors.finish {α : Type*} {saved : Option Db} {db₀ : Db}
    (hsaved : ∀ db', saved = some db' → db.SameDescriptors db') (h : db.SameDescriptors db₀)
    (answers : Bool) (value : α) :
    db.SameDescriptors (EndpointRegistry.finish answers saved db₀ value).2 := by
  cases saved with
  | none => rwa [finish_of_none]
  | some db' =>
      rw [finish_of_some]
      split
      · exact hsaved db' rfl
      · exact h

theorem Db.sameDescriptors_saveSemanticProtocol (record : ISemanticProtocol) {db db₀ db' : Db}
    (h : db.SameDescriptors db₀) (hsaved : db₀.saveSemanticProtocol record = some db') :
    db.SameDescriptors db' := by
  unfold Db.saveSemanticProtocol at hsaved
  split at hsaved
  · obtain rfl := Option.some.inj hsaved
    exact ⟨h.assets, h.endpoints, h.aasDescriptors⟩
  · cases hsaved

theorem replaceRoles_sameDescriptors (answersDelete answersSave : Bool)
    (record : ISemanticProtocol) :
    db.SameDescriptors (replaceRoles db answersDelete answersSave record).2 := by
  unfold replaceRoles
  split
  · have hdeleted : db.SameDescriptors (db.deleteRoles record.identification.id) :=
      ⟨rfl, rfl, rfl⟩
    exact .finish (fun _ => Db.sameDescriptors_saveSemanticProtocol record hdeleted) hdeleted _ _
  · exact .refl db

/-- The calls that neither write nor delete a descriptor leave all of them alone. -/
theorem Call.sameDescriptors (h : call.written = none)
    (hdelete : ∀ env aasId, call ≠ .deleteAasDescriptorByAasId env aasId) :
    db.SameDescriptors (call.run aes db) := by
  cases call with
  | createAASDescriptor env record => cases h
  | upsertAASDescriptor env record => cases h
  | updateAasDescriptorByAasId env record => cases h
  | deleteAasDescriptorByAasId env aasId => exact absurd rfl (hdelete env aasId)
  | createSemanticProtocol env record =>
      simp only [Call.run, EndpointRegistry.createSemanticProtocol]
      split_ifs
      · exact .refl db
      · exact .finish (fun _ => Db.sameDescriptors_saveSemanticProtocol record (.refl db))
          (.refl db) _ _
      · exact .refl db
  | upsertSemanticProtocol env record => exact replaceRoles_sameDescriptors _ _ record
  | updateSemanticProtocolById env record =>
      simp only [Call.run, EndpointRegistry.updateSemanticProtocolById]
      split_ifs
      · exact replaceRoles_sameDescriptors _ _ record
      · exact .refl db
      · exact .refl db
  | deleteSemanticProtocolById env semanticProtocolId =>
      simp only [Call.run, EndpointRegistry.deleteSemanticProtocolById]
      split_ifs <;> exact ⟨rfl, rfl, rfl⟩
  | updateAASDescriptorsToRole env sProtocol roleName aasIds =>
      simp only [Call.run, EndpointRegistry.updateAASDescriptorsToRole]
      split
      · split
        · exact .refl db
        · split
          · split
            · exact .refl db
            · refine .finish (fun db' hdb' => ?_) (.refl db) _ _
              obtain rfl := Option.some.inj hdb'
              exact ⟨rfl, rfl, rfl⟩
          · exact .refl db
      · exact .refl db
  | deleteAASIdFromRole env sProtocol roleName aasIdToRemove =>
      simp only [Call.run, EndpointRegistry.deleteAASIdFromRole]
      split
      · split
        · exact .refl db
        · refine .finish (fun db' hdb' => ?_) (.refl db) _ _
          obtain rfl := Option.some.inj hdb'
          exact ⟨rfl, rfl, rfl⟩
      · exact .refl db

/-- Deleting takes one descriptor away, or nothing. -/
theorem deleteAasDescriptorByAasId_tables (env : CallEnv) (aasId : String) :
    let db' := (EndpointRegistry.deleteAasDescriptorByAasId env db aasId).2
    db'.assets = db.assets ∧ db'.endpoints = db.endpoints ∧
      (db'.aasDescriptors = db.aasDescriptors ∨
        db'.aasDescriptors = db.aasDescriptors.erase aasId) := by
  simp only [EndpointRegistry.deleteAasDescriptorByAasId]
  split_ifs
  · exact ⟨rfl, rfl, .inr rfl⟩
  · exact ⟨rfl, rfl, .inl rfl⟩
  · exact ⟨rfl, rfl, .inl rfl⟩

/-- A call that saves no descriptor leaves the endpoint rows alone. -/
theorem Call.endpoints_of_not_takesEffect (heffect : takesEffect db call = false) :
    (call.run aes db).endpoints = db.endpoints := by
  cases hwritten : call.written with
  | some written =>
      obtain ⟨env, record⟩ := written
      rw [Call.run_of_not_takesEffect hwritten heffect]
      split <;> rfl
  | none =>
      by_cases hdelete : ∃ env id, call = .deleteAasDescriptorByAasId env id
      · obtain ⟨env, id, rfl⟩ := hdelete
        exact (deleteAasDescriptorByAasId_tables env id).2.1
      · exact (call.sameDescriptors hwritten fun env id heq => hdelete ⟨env, id, heq⟩).endpoints

/-! ### The keys a descriptor refers to -/

/-- The asset and the endpoints of every descriptor are stored. -/
def Db.Linked (db : Db) : Prop :=
  ∀ aasId row, db.aasDescriptors.lookup aasId = some row →
    (db.assets.lookup row.asset).isSome ∧
      ∀ key ∈ row.endpoints, (db.endpoints.lookup key).isSome

theorem Db.linked_empty : Db.empty.Linked := by
  intro aasId row hrow
  cases hrow

theorem lookup_insert_isSome {κ ρ : Type*} [DecidableEq κ] {t : Table κ ρ} {k k' : κ} {row : ρ}
    (h : (t.lookup k).isSome) : ((t.insert k' row).lookup k).isSome := by
  by_cases hk : k = k'
  · subst hk
    rw [AList.lookup_insert]
    rfl
  · rwa [AList.lookup_insert_ne hk]

theorem Db.Linked.saves {identification asset : IIdentifier} {signature : Field}
    {endpoints : List IEndpoint} {db' : Db} (h : db.Linked)
    (hsaves : db.Saves identification asset signature endpoints db') : db'.Linked := by
  intro aasId row hrow
  rw [hsaves.assets, hsaves.endpoints]
  rw [hsaves.aasDescriptors] at hrow
  by_cases hid : aasId = identification.id
  · subst hid
    rw [AList.lookup_insert] at hrow
    obtain rfl := Option.some.inj hrow
    refine ⟨by rw [AList.lookup_insert]; rfl, fun key hkey => ?_⟩
    rw [List.mem_dedup] at hkey
    obtain ⟨e, he, rfl⟩ := List.mem_map.mp hkey
    exact lookup_saveAll_of_mem he
  · rw [AList.lookup_insert_ne hid] at hrow
    obtain ⟨hold, holds⟩ := h aasId row hrow
    exact ⟨lookup_insert_isSome hold, fun key hkey => lookup_saveAll_isSome (holds key hkey)⟩

theorem Db.Linked.step (h : db.Linked) (call : Call) : (call.run aes db).Linked := by
  intro aasId row hrow
  cases hwritten : call.written with
  | some written =>
      obtain ⟨env, record⟩ := written
      cases heffect : takesEffect db call with
      | true => exact h.saves (Call.run_of_takesEffect hwritten heffect) aasId row hrow
      | false =>
          rw [Call.run_of_not_takesEffect hwritten heffect] at hrow ⊢
          split at hrow
          · rename_i hasset
            rw [if_pos hasset]
            obtain ⟨hold, holds⟩ := h aasId row hrow
            exact ⟨lookup_insert_isSome hold, holds⟩
          · rename_i hasset
            rw [if_neg hasset]
            exact h aasId row hrow
  | none =>
      by_cases hdelete : ∃ env id, call = .deleteAasDescriptorByAasId env id
      · obtain ⟨env, id, rfl⟩ := hdelete
        obtain ⟨hassets, hendpoints, hdescriptors⟩ :=
          @deleteAasDescriptorByAasId_tables db env id
        simp only [Call.run] at hrow ⊢
        rw [hassets, hendpoints]
        rcases hdescriptors with hdescriptors | hdescriptors
        · rw [hdescriptors] at hrow
          exact h aasId row hrow
        · rw [hdescriptors] at hrow
          by_cases hid : aasId = id
          · subst hid
            rw [AList.lookup_erase] at hrow
            cases hrow
          · rw [AList.lookup_erase_ne hid] at hrow
            exact h aasId row hrow
      · have hsame : db.SameDescriptors (call.run aes db) := call.sameDescriptors hwritten
          fun env id heq => hdelete ⟨env, id, heq⟩
        rw [hsame.assets, hsame.endpoints]
        rw [hsame.aasDescriptors] at hrow
        exact h aasId row hrow

/-- Whatever calls have been made, the keys of the descriptors are stored. -/
theorem linked_of_exec {calls : List Call} (h : exec (step aes) Db.empty calls = some db) :
    db.Linked :=
  (along_of_invariant (fun _ call _ hlinked hstep => by
    obtain rfl := Option.some.inj hstep
    exact hlinked.step call) Db.linked_empty calls).exec_eq h

end Calls

/-! ### Sample requests -/

/-- A cipher with the two properties of AES the registry relies on. -/
def sampleAes : Aes where
  encrypt _ text := String.ofList ('U' :: text.toList)
  decrypt credential := String.ofList (credential.toList.drop 1)
  decrypt_encrypt random text := by simp
  encrypt_ne_empty random text := by
    intro h
    have hlists := congrArg String.toList h
    simp at hlists

def firstSalt : Salt := ⟨"first", by decide⟩

def secondSalt : Salt := ⟨"second", by decide⟩

/-- The database answers, and `salt` is the salt of the call. -/
def sampleEnv (salt : Salt) : CallEnv where
  answers _ := true
  random _ := ⟨salt, "", ""⟩

def sampleEndpoint (user password : Field) : IEndpoint where
  address := "http://aas.example"
  type := "http"
  target := .undefined
  user := user
  password := password
  salt := .undefined
  tlsCertificate := .undefined
  certificateX509I40 := .undefined

def sampleRecord (id asset : String) (endpoint : IEndpoint) : IAASDescriptor where
  identification := ⟨id, "IRI"⟩
  asset := ⟨asset, "IRI"⟩
  endpoints := [endpoint]
  signature := .undefined

end I40Aas.EndpointRegistry
