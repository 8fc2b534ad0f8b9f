import I40Aas.EndpointRegistry.Leftovers

/-!
Reading a descriptor that has just been written. The three writing operations copy the
fields of a request by hand. Where the request gives all of them, nothing old shows, and
the descriptor reads as it was submitted, but for one field: an update saves the loaded
descriptor and never sets its `idType`.
-/

namespace I40Aas.EndpointRegistry

open I40Aas.Lib

/-- Every property is given and not empty. The salt is none of the client's. -/
structure IEndpoint.Complete (e : IEndpoint) : Prop where
  address : e.address ≠ ""
  type : e.type ≠ ""
  target : e.target.truthy = true
  user : e.user.truthy = true
  password : e.password.truthy = true
  tlsCertificate : e.tlsCertificate.truthy = true
  certificateX509I40 : e.certificateX509I40.truthy = true

structure IAASDescriptor.Complete (record : IAASDescriptor) : Prop where
  id : record.identification.id ≠ ""
  idType : record.identification.idType ≠ ""
  assetId : record.asset.id ≠ ""
  assetIdType : record.asset.idType ≠ ""
  signature : record.signature.truthy = true
  endpoints : ∀ e ∈ record.endpoints, e.Complete
  distinct : (record.endpoints.map IEndpoint.key).Nodup

/-- The endpoint with its plain credentials. -/
def IEndpoint.submitted (e : IEndpoint) : EndpointResponse where
  address := e.address
  type := e.type
  target := e.target.assign none
  user := e.user.assign none
  password := e.password.assign none
  salt := none
  tlsCertificate := e.tlsCertificate.assign none
  certificateX509I40 := e.certificateX509I40.assign none

def IAASDescriptor.submitted (record : IAASDescriptor) : AASDescriptorResponse where
  identification := record.identification
  asset := record.asset
  endpoints := record.endpoints.map IEndpoint.submitted
  signature := record.signature.assign none

/-- The operation saves the `idType` of the request: an update keeps the stored one. -/
def Call.WritesIdType (db : Db) (record : IAASDescriptor) : Call → Prop
  | updateAasDescriptorByAasId _ _ =>
      (db.aasDescriptors.lookup record.identification.id).map (·.idType) =
        some record.identification.idType
  | _ => True

section

variable {aes : Aes} {db : Db} {call : Call} {env : CallEnv} {record : IAASDescriptor}

/-- Whatever the row held before, a complete endpoint is read as it was submitted. -/
theorem IEndpoint.Complete.response_eq {e : IEndpoint} (h : e.Complete) (random : Random)
    (old : Option EndpointEntity) :
    ((e.encryptCredentials aes random).row old).response aes e.key = e.submitted := by
  obtain ⟨user, password, huser, hpassword, heq⟩ := e.encryptCredentials_spec aes random
  have hne : ∀ {f : Field}, f.truthy = true → f ≠ .undefined := by
    rintro f hf rfl
    cases hf
  have hsalt : e.newSalt random = .string random.salt.1 := by
    rw [IEndpoint.newSalt, if_pos h.user]
  have huserRead := huser.reads (old.bind (·.salt)) (old.bind (·.user))
  have hpasswordRead := hpassword.reads (old.bind (·.salt)) (old.bind (·.password))
  rw [if_neg (hne h.user), hsalt] at huserRead
  rw [if_neg (hne h.password), hsalt] at hpasswordRead
  have hnew : ¬ (Field.string random.salt.1).assign (old.bind (·.salt)) = some "" :=
    fun heq => random.salt.2 (Option.some.inj heq)
  simp only [heq, hsalt, IEndpoint.row, EndpointEntity.response, huserRead, hpasswordRead,
    if_neg hnew, IEndpoint.submitted, IEndpoint.key,
    Field.assign_eq_of_ne (hne h.target) _ none,
    Field.assign_eq_of_ne (hne h.tlsCertificate) _ none,
    Field.assign_eq_of_ne (hne h.certificateX509I40) _ none]

theorem endpoints_of_complete (hcomplete : record.Complete) :
    Multiset.filterMap (readListed aes env db record)
        ((record.endpoints.map IEndpoint.key).dedup : Multiset EndpointKey) =
      (record.endpoints.map IEndpoint.submitted : Multiset EndpointResponse) := by
  rw [map_eq_filterMap_firstListed hcomplete.distinct]
  congr 1
  funext key
  cases hfirst : firstListed record.endpoints key with
  | none => simp [readListed, hfirst]
  | some p =>
      obtain ⟨e, i⟩ := p
      have hmem : e ∈ record.endpoints :=
        List.fst_mem_of_mem_zipIdx (List.mem_of_find?_eq_some hfirst)
      obtain rfl := key_of_firstListed hfirst
      rw [readListed, hfirst]
      exact congrArg some ((hcomplete.endpoints e hmem).response_eq _ _)

theorem savedIdType_eq_iff (hwritten : call.written = some (env, record))
    (heffect : takesEffect db call = true) :
    call.savedIdType db record = record.identification.idType ↔ call.WritesIdType db record := by
  cases call with
  | createAASDescriptor env record => simp [Call.savedIdType, Call.WritesIdType]
  | upsertAASDescriptor env record => simp [Call.savedIdType, Call.WritesIdType]
  | updateAasDescriptorByAasId env record =>
      obtain ⟨rfl, rfl⟩ := Prod.mk.inj (Option.some.inj hwritten)
      simp only [takesEffect, Bool.and_eq_true, Option.isSome_iff_exists] at heffect
      obtain ⟨⟨-, row, hrow⟩, -⟩ := heffect
      simp [Call.savedIdType, Call.WritesIdType, hrow]
  | _ => cases hwritten

/-- In every state, a complete record that is accepted reads as it was submitted, the
endpoints in some order, exactly if the operation writes its `idType`. -/
theorem read_submitted_iff (hwritten : call.written = some (env, record))
    (hcomplete : record.Complete) (hsucceeds : call.succeeds aes db = true) :
    readAASDescriptorByAasId aes (call.run aes db) record.identification.id =
        .ok record.submitted ↔ call.WritesIdType db record := by
  rw [Call.succeeds_eq_takesEffect hwritten] at hsucceeds
  obtain ⟨signature, hsignature, hne⟩ := Field.exists_of_truthy hcomplete.signature
  rw [read_of_takesEffect hwritten hsucceeds, endpoints_of_complete hcomplete,
    ← savedIdType_eq_iff hwritten hsucceeds, Except.ok.injEq, IAASDescriptor.submitted,
    AASDescriptorResponse.mk.injEq, hsignature, Field.assign_string, Field.assign_string]
  constructor
  · rintro ⟨hidentification, -⟩
    exact congrArg IIdentifier.idType hidentification
  · intro hidType
    exact ⟨by rw [hidType], rfl, rfl, by simp [Option.filter, hne]⟩

end

def completeEndpoint : IEndpoint where
  address := "http://aas.example"
  type := "http"
  target := .string "edge"
  user := .string "alice"
  password := .string "secret"
  salt := .undefined
  tlsCertificate := .string "tls"
  certificateX509I40 := .string "x509"

def completeRecord (idType : String) : IAASDescriptor where
  identification := ⟨"aas", idType⟩
  asset := ⟨"asset", "IRI"⟩
  endpoints := [completeEndpoint]
  signature := .string "signature"

theorem completeRecord_complete {idType : String} (h : idType ≠ "") :
    (completeRecord idType).Complete where
  id := by simp [completeRecord]
  idType := h
  assetId := by simp [completeRecord]
  assetIdType := by simp [completeRecord]
  signature := rfl
  endpoints := by
    rintro e he
    obtain rfl := List.mem_singleton.mp he
    exact ⟨by decide, by decide, rfl, rfl, rfl, rfl, rfl⟩
  distinct := List.nodup_singleton _

/-- The descriptor as it was registered first. -/
def completeDb : Db :=
  (Call.createAASDescriptor (sampleEnv firstSalt) (completeRecord "IRI")).run sampleAes Db.empty

/-- The update with another `idType` is answered, and the old one is read. -/
theorem read_submitted_iff_otherIdType :
    ¬ readAASDescriptorByAasId sampleAes
        ((Call.updateAasDescriptorByAasId (sampleEnv secondSalt) (completeRecord "Custom")).run
          sampleAes completeDb) "aas" = .ok (completeRecord "Custom").submitted :=
  fun h => absurd ((read_submitted_iff rfl (completeRecord_complete (by decide)) (by decide)).mp h)
    (show ¬ Option.map _ _ = some "Custom" by decide)

theorem not_read_submitted_otherIdType :
    ¬ ∀ (aes : Aes) (calls : List Call) (db : Db), exec (step aes) Db.empty calls = some db →
      ∀ (call : Call) (env : CallEnv) (record : IAASDescriptor),
        call.written = some (env, record) → record.Complete → call.succeeds aes db = true →
        readAASDescriptorByAasId aes (call.run aes db) record.identification.id =
          .ok record.submitted := by
  intro h
  have hread := h sampleAes [.createAASDescriptor (sampleEnv firstSalt) (completeRecord "IRI")]
    completeDb rfl (.updateAasDescriptorByAasId (sampleEnv secondSalt) (completeRecord "Custom"))
    (sampleEnv secondSalt) (completeRecord "Custom") rfl (completeRecord_complete (by decide))
    (by decide)
  exact absurd hread (by decide)

end I40Aas.EndpointRegistry
