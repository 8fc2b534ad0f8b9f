import I40Aas.EndpointRegistry.Isolation

/-!
What is left of earlier registrations after a descriptor has been written. `save` does
not touch a column whose property is `undefined`, and the row of an endpoint outlives
the descriptors that list it, so a property that a request leaves out is read with the
value some earlier request gave it. The answer should hold nothing but what the request
says, and then it is the same in every state. `Forgets` says when it is.
-/

namespace I40Aas.EndpointRegistry

open I40Aas.Lib

/-- The operations that replace a stored descriptor. -/
inductive Replacement
  | upsertAASDescriptor
  | updateAasDescriptorByAasId
  deriving DecidableEq

def Replacement.call (env : CallEnv) (record : IAASDescriptor) : Replacement → Call
  | upsertAASDescriptor => .upsertAASDescriptor env record
  | updateAasDescriptorByAasId => .updateAasDescriptorByAasId env record

/-! ### What an answer should hold -/

/-- What the request alone says of the endpoint; "cloud" is the default of a target. -/
def IEndpoint.alone (e : IEndpoint) : EndpointResponse where
  address := e.address
  type := e.type
  target := e.target.assign (some "cloud")
  user := e.user.assign none
  password := e.password.assign none
  salt := none
  tlsCertificate := e.tlsCertificate.assign none
  certificateX509I40 := e.certificateX509I40.assign none

/-- The endpoints of the answer are those of the request, and every target, user, password,
certificate and signature in it is what the request alone says. -/
def IAASDescriptor.HoldsOnly (record : IAASDescriptor) :
    Except RegistryError AASDescriptorResponse → Prop
  | .ok d => d.endpoints.map EndpointResponse.withoutSalt =
      (record.endpoints.map IEndpoint.alone : Multiset EndpointResponse) ∧
      d.signature = (record.signature.assign none).filter (· ≠ "")
  | .error _ => False

instance (record : IAASDescriptor) :
    ∀ answer, Decidable (record.HoldsOnly answer)
  | .ok _ => inferInstanceAs (Decidable (_ ∧ _))
  | .error _ => inferInstanceAs (Decidable False)

/-! ### What a state should not hold -/

/-- The target an endpoint has so far; "cloud" is the default of a new row. -/
def oldTarget : Option EndpointEntity → Option String
  | some row => row.target
  | none => some "cloud"

/-- What the request leaves out of the endpoint is read of the old row as of a new one. A
credential counts as it is read under the salt that the row gets. -/
structure IEndpoint.Forgets (aes : Aes) (e : IEndpoint) (random : Random)
    (old : Option EndpointEntity) : Prop where
  target : e.target = .undefined → oldTarget old = some "cloud"
  tlsCertificate : e.tlsCertificate = .undefined → old.bind (·.tlsCertificate) = none
  certificateX509I40 : e.certificateX509I40 = .undefined → old.bind (·.certificateX509I40) = none
  user : e.user = .undefined →
    readCredential aes ((e.newSalt random).assign (old.bind (·.salt))) (old.bind (·.user)) = none
  password : e.password = .undefined →
    readCredential aes ((e.newSalt random).assign (old.bind (·.salt))) (old.bind (·.password)) =
      none

/-- The signature a descriptor is read with so far. -/
def Db.oldSignature (db : Db) (aasId : String) : Option String :=
  ((db.aasDescriptors.lookup aasId).bind (·.signature)).filter (· ≠ "")

/-- The state holds nothing that the request leaves out. -/
structure IAASDescriptor.Forgets (aes : Aes) (record : IAASDescriptor) (env : CallEnv) (db : Db) :
    Prop where
  signature : record.signature = .undefined → db.oldSignature record.identification.id = none
  endpoints : ∀ key e i, firstListed record.endpoints key = some (e, i) →
    e.Forgets aes (env.random i) (db.endpoints.lookup key)

/-- The row of the endpoint gets the empty string as its salt. -/
def IEndpoint.SaltEmpty (e : IEndpoint) (random : Random) (old : Option EndpointEntity) : Prop :=
  (e.newSalt random).assign (old.bind (·.salt)) = some ""

/-- Neither state holds anything that the request leaves out. They agree on the `idType`
that an update keeps, and on which endpoints get an empty salt, which is left in the
answer. -/
structure Replacement.Forgets (aes : Aes) (operation : Replacement) (record : IAASDescriptor)
    (env₁ env₂ : CallEnv) (db₁ db₂ : Db) : Prop where
  first : record.Forgets aes env₁ db₁
  second : record.Forgets aes env₂ db₂
  idType : operation = .updateAasDescriptorByAasId →
    (db₁.aasDescriptors.lookup record.identification.id).map (·.idType) =
      (db₂.aasDescriptors.lookup record.identification.id).map (·.idType)
  salts : ∀ key e i, firstListed record.endpoints key = some (e, i) →
    (e.SaltEmpty (env₁.random i) (db₁.endpoints.lookup key) ↔
      e.SaltEmpty (env₂.random i) (db₂.endpoints.lookup key))

section Endpoint

variable {aes : Aes}

theorem IEndpoint.response_alone_iff (random : Random) (e : IEndpoint)
    (old : Option EndpointEntity) :
    (((e.encryptCredentials aes random).row old).response aes e.key).withoutSalt = e.alone ↔
      e.Forgets aes random old := by
  obtain ⟨user, password, huser, hpassword, heq⟩ := e.encryptCredentials_spec aes random
  have hgiven : ∀ {f : Field} {column : Option String},
      (if f = .undefined then column else f.assign none) = f.assign none ↔
        (f = .undefined → column = none) := by
    intro f column
    cases f <;> simp
  simp only [heq, IEndpoint.row, EndpointEntity.response, EndpointResponse.withoutSalt,
    IEndpoint.alone, IEndpoint.key, EndpointResponse.mk.injEq, true_and, huser.reads,
    hpassword.reads, hgiven, Field.assign_eq_assign_iff]
  constructor
  · rintro ⟨htarget, huser, hpassword, htls, hcert⟩
    exact ⟨htarget, htls, hcert, huser, hpassword⟩
  · rintro ⟨htarget, htls, hcert, huser, hpassword⟩
    exact ⟨htarget, huser, hpassword, htls, hcert⟩

/-- Two readings that agree apart from the salts agree if both show an empty salt or none
does. -/
theorem IEndpoint.responses_eq_iff {random₁ random₂ : Random} {e : IEndpoint}
    {old₁ old₂ : Option EndpointEntity} (h₁ : e.Forgets aes random₁ old₁)
    (h₂ : e.Forgets aes random₂ old₂) :
    ((e.encryptCredentials aes random₁).row old₁).response aes e.key =
        ((e.encryptCredentials aes random₂).row old₂).response aes e.key ↔
      (e.SaltEmpty random₁ old₁ ↔ e.SaltEmpty random₂ old₂) := by
  have hsame := (IEndpoint.response_alone_iff random₁ e old₁).mpr h₁
  rw [← (IEndpoint.response_alone_iff random₂ e old₂).mpr h₂] at hsame
  have hsalt : ∀ (random : Random) (old : Option EndpointEntity),
      (((e.encryptCredentials aes random).row old).response aes e.key).salt =
        if (e.newSalt random).assign (old.bind (·.salt)) = some "" then some "" else none := by
    intro random old
    obtain ⟨user, password, -, -, heq⟩ := e.encryptCredentials_spec aes random
    rw [heq]
    rfl
  have hsplit : ∀ r₁ r₂ : EndpointResponse, r₁.withoutSalt = r₂.withoutSalt →
      (r₁ = r₂ ↔ r₁.salt = r₂.salt) := by
    intro r₁ r₂ hwithout
    constructor
    · rintro rfl
      rfl
    · intro heq
      cases r₁
      cases r₂
      simp_all [EndpointResponse.withoutSalt]
  rw [hsplit _ _ hsame, hsalt, hsalt, IEndpoint.SaltEmpty, IEndpoint.SaltEmpty]
  split_ifs with hempty₁ hempty₂ hempty₂ <;> simp_all

theorem firstListed_isSome_iff {endpoints : List IEndpoint} {key : EndpointKey} :
    (firstListed endpoints key).isSome ↔ key ∈ endpoints.map IEndpoint.key := by
  rw [firstListed, List.find?_isSome, List.mem_map]
  constructor
  · rintro ⟨p, hp, hkey⟩
    exact ⟨p.1, List.fst_mem_of_mem_zipIdx hp, by simpa using hkey⟩
  · rintro ⟨e, he, rfl⟩
    obtain ⟨i, hi⟩ := List.mem_iff_getElem?.mp he
    exact ⟨(e, i), List.mem_zipIdx_iff_getElem?.mpr hi, by simp⟩

theorem key_of_firstListed {endpoints : List IEndpoint} {key : EndpointKey} {e : IEndpoint} {i : ℕ}
    (h : firstListed endpoints key = some (e, i)) : e.key = key := by
  simpa using List.find?_some h

/-- With distinct keys, an endpoint is the first one with its key. -/
theorem firstListed_of_mem {endpoints : List IEndpoint}
    (hdistinct : (endpoints.map IEndpoint.key).Nodup) {e : IEndpoint} (he : e ∈ endpoints) :
    ∃ i, firstListed endpoints e.key = some (e, i) := by
  obtain ⟨⟨e', i⟩, hfirst⟩ := Option.isSome_iff_exists.mp
    (firstListed_isSome_iff.mpr (List.mem_map_of_mem he))
  have hmem : e' ∈ endpoints := List.fst_mem_of_mem_zipIdx (List.mem_of_find?_eq_some hfirst)
  obtain rfl := List.inj_on_of_nodup_map hdistinct hmem he (key_of_firstListed hfirst)
  exact ⟨i, hfirst⟩

/-- What is made of the endpoints one by one is made of them key by key. -/
theorem map_eq_filterMap_firstListed {endpoints : List IEndpoint}
    (hdistinct : (endpoints.map IEndpoint.key).Nodup) {α : Type} (f : IEndpoint → α) :
    (endpoints.map f : Multiset α) = Multiset.filterMap
      (fun key => (firstListed endpoints key).map fun p => f p.1)
      ((endpoints.map IEndpoint.key).dedup : Multiset EndpointKey) := by
  rw [hdistinct.dedup, Multiset.filterMap_coe, List.filterMap_map]
  refine congrArg _ (Eq.symm ?_)
  refine (List.filterMap_congr fun e he => ?_).trans (congrFun List.filterMap_eq_map _)
  obtain ⟨i, hfirst⟩ := firstListed_of_mem hdistinct he
  rw [Function.comp_apply, hfirst]
  rfl

end Endpoint

section Replacement

variable {aes : Aes} {db db₁ db₂ : Db} {call : Call} {env env₁ env₂ : CallEnv}
  {record : IAASDescriptor} {operation : Replacement}

theorem Replacement.written : (operation.call env record).written = some (env, record) := by
  cases operation <;> rfl

/-- An operation that does not throw has saved its descriptor. -/
theorem Replacement.takesEffect_of_succeeds
    (h : (operation.call env record).succeeds aes db = true) :
    takesEffect db (operation.call env record) = true := by
  rwa [Call.succeeds_eq_takesEffect Replacement.written] at h

theorem Replacement.savedIdType_eq_iff (h₁ : takesEffect db₁ (operation.call env₁ record) = true)
    (h₂ : takesEffect db₂ (operation.call env₂ record) = true) :
    (operation.call env₁ record).savedIdType db₁ record =
        (operation.call env₂ record).savedIdType db₂ record ↔
      (operation = .updateAasDescriptorByAasId →
        (db₁.aasDescriptors.lookup record.identification.id).map (·.idType) =
          (db₂.aasDescriptors.lookup record.identification.id).map (·.idType)) := by
  cases operation with
  | upsertAASDescriptor => simp [Replacement.call, Call.savedIdType]
  | updateAasDescriptorByAasId =>
      simp only [Replacement.call, takesEffect, Bool.and_eq_true, Option.isSome_iff_exists]
        at h₁ h₂
      obtain ⟨⟨-, row₁, hrow₁⟩, -⟩ := h₁
      obtain ⟨⟨-, row₂, hrow₂⟩, -⟩ := h₂
      simp [Replacement.call, Call.savedIdType, hrow₁, hrow₂]

/-- The row that a listed endpoint has been saved in, as it is read. -/
def readListed (aes : Aes) (env : CallEnv) (db : Db) (record : IAASDescriptor) (key : EndpointKey) :
    Option EndpointResponse :=
  (firstListed record.endpoints key).map fun p =>
    ((p.1.encryptCredentials aes (env.random p.2)).row (db.endpoints.lookup key)).response aes key

theorem key_of_readListed {key : EndpointKey} {response : EndpointResponse}
    (h : readListed aes env db record key = some response) : response.key = key := by
  obtain ⟨p, -, rfl⟩ := Option.map_eq_some_iff.mp h
  rfl

/-- The reading of a descriptor that has just been saved. -/
theorem read_of_takesEffect (hwritten : call.written = some (env, record))
    (heffect : takesEffect db call = true) :
    readAASDescriptorByAasId aes (call.run aes db) record.identification.id = .ok
      { identification := ⟨record.identification.id, call.savedIdType db record⟩
        asset := record.asset
        endpoints := Multiset.filterMap (readListed aes env db record)
          ((record.endpoints.map IEndpoint.key).dedup : Multiset EndpointKey)
        signature := (record.signature.assign
          ((db.aasDescriptors.lookup record.identification.id).bind (·.signature))).filter
            (· ≠ "") } := by
  have hsaves := @Call.run_of_takesEffect aes _ _ _ _ hwritten heffect
  rw [readAASDescriptorByAasId, hsaves.aasDescriptors, AList.lookup_insert]
  dsimp only
  rw [hsaves.assets, AList.lookup_insert, map_key_encryptEndpoints]
  have hendpoints : ((record.endpoints.map IEndpoint.key).dedup.filterMap fun key =>
        ((call.run aes db).endpoints.lookup key).map (·.response aes key)) =
      (record.endpoints.map IEndpoint.key).dedup.filterMap (readListed aes env db record) := by
    refine List.filterMap_congr fun key hkey => ?_
    obtain ⟨p, hfirst⟩ := Option.isSome_iff_exists.mp
      (firstListed_isSome_iff.mpr (List.mem_dedup.mp hkey))
    rw [Call.lookup_endpoints_of_takesEffect hwritten heffect, readListed, hfirst]
    rfl
  simp only [Multiset.filterMap_coe, hendpoints]

/-- The endpoints that are read are those of the request. -/
theorem map_key_readListed (hdistinct : (record.endpoints.map IEndpoint.key).Nodup) :
    (Multiset.filterMap (readListed aes env db record)
      ((record.endpoints.map IEndpoint.key).dedup : Multiset EndpointKey)).map
        EndpointResponse.key = (record.endpoints.map IEndpoint.key : Multiset EndpointKey) := by
  rw [map_eq_filterMap_firstListed hdistinct, Multiset.map_filterMap]
  congr 1
  funext key
  cases hfirst : firstListed record.endpoints key with
  | none => simp [readListed, hfirst]
  | some p =>
      have hkey : p.1.key = key := key_of_firstListed hfirst
      rw [readListed, hfirst, Option.map_some, Option.map_some, Option.map_some, hkey]
      rfl

theorem readListed_isSome {key : EndpointKey} :
    (readListed aes env db record key).isSome = (firstListed record.endpoints key).isSome :=
  Option.isSome_map ..

/-- What holds for the endpoints of the request, said of the first one with each key. -/
theorem forall_key_iff {P : EndpointKey → Prop} {Q : EndpointKey → IEndpoint → ℕ → Prop}
    (h : ∀ {key e i}, firstListed record.endpoints key = some (e, i) → (P key ↔ Q key e i)) :
    (∀ key ∈ ((record.endpoints.map IEndpoint.key).dedup : Multiset EndpointKey), P key) ↔
      ∀ key e i, firstListed record.endpoints key = some (e, i) → Q key e i := by
  constructor
  · intro hall key e i hfirst
    have hmem : key ∈ record.endpoints.map IEndpoint.key :=
      firstListed_isSome_iff.mp (by simp [hfirst])
    exact (h hfirst).mp (hall key (List.mem_dedup.mpr hmem))
  · intro hall key hkey
    obtain ⟨⟨e, i⟩, hfirst⟩ := Option.isSome_iff_exists.mp
      (firstListed_isSome_iff.mpr (List.mem_dedup.mp hkey))
    exact (h hfirst).mpr (hall key e i hfirst)

/-- The signature that is read is the request's if none was there where it gives none. -/
theorem signature_eq_iff (record : IAASDescriptor) (db : Db) :
    (record.signature.assign
        ((db.aasDescriptors.lookup record.identification.id).bind (·.signature))).filter
          (· ≠ "") = (record.signature.assign none).filter (· ≠ "") ↔
      (record.signature = .undefined → db.oldSignature record.identification.id = none) := by
  rw [Db.oldSignature]
  cases record.signature <;> simp

/-- Only what the request says is read exactly if the state forgets the rest. -/
theorem holdsOnly_iff (hdistinct : (record.endpoints.map IEndpoint.key).Nodup)
    (heffect : takesEffect db (operation.call env record) = true) :
    record.HoldsOnly (readAASDescriptorByAasId aes ((operation.call env record).run aes db)
        record.identification.id) ↔ record.Forgets aes env db := by
  rw [read_of_takesEffect Replacement.written heffect, IAASDescriptor.HoldsOnly,
    map_eq_filterMap_firstListed hdistinct, Multiset.map_filterMap,
    filterMap_eq_filterMap_iff EndpointResponse.key]
  · have hresponses : ∀ {key e i}, firstListed record.endpoints key = some (e, i) →
        ((readListed aes env db record key).map EndpointResponse.withoutSalt =
            (firstListed record.endpoints key).map (fun p => p.1.alone) ↔
          e.Forgets aes (env.random i) (db.endpoints.lookup key)) := by
      intro key e i hfirst
      obtain rfl := key_of_firstListed hfirst
      rw [readListed, hfirst, Option.map_some, Option.map_some, Option.map_some,
        Option.some.injEq]
      exact IEndpoint.response_alone_iff _ e _
    refine (and_congr (forall_key_iff hresponses) (signature_eq_iff record db)).trans ?_
    exact ⟨fun ⟨hendpoints, hsignature⟩ => ⟨hsignature, hendpoints⟩,
      fun ⟨hsignature, hendpoints⟩ => ⟨hendpoints, hsignature⟩⟩
  · intro key hkey
    rw [Option.isSome_map, readListed_isSome]
    exact firstListed_isSome_iff.mpr (List.mem_dedup.mp hkey)
  · intro key response h
    obtain ⟨response', hresponse', rfl⟩ := Option.map_eq_some_iff.mp h
    show response'.key = key
    exact key_of_readListed hresponse'
  · intro key response h
    obtain ⟨⟨e, i⟩, hfirst, rfl⟩ := Option.map_eq_some_iff.mp h
    exact key_of_firstListed hfirst

/-- Two readings that hold only what the request says are the same exactly if `idType` and
empty salts are. -/
theorem reads_eq_iff (h₁ : takesEffect db₁ (operation.call env₁ record) = true)
    (h₂ : takesEffect db₂ (operation.call env₂ record) = true)
    (hforgets₁ : record.Forgets aes env₁ db₁) (hforgets₂ : record.Forgets aes env₂ db₂) :
    readAASDescriptorByAasId aes ((operation.call env₁ record).run aes db₁)
          record.identification.id =
        readAASDescriptorByAasId aes ((operation.call env₂ record).run aes db₂)
          record.identification.id ↔
      operation.Forgets aes record env₁ env₂ db₁ db₂ := by
  rw [read_of_takesEffect Replacement.written h₁, read_of_takesEffect Replacement.written h₂,
    Except.ok.injEq, AASDescriptorResponse.mk.injEq, IIdentifier.mk.injEq,
    Replacement.savedIdType_eq_iff h₁ h₂, filterMap_eq_filterMap_iff EndpointResponse.key
      (fun key hkey => by
        rw [readListed_isSome]
        exact firstListed_isSome_iff.mpr (List.mem_dedup.mp hkey))
      (fun _ _ => key_of_readListed) (fun _ _ => key_of_readListed)]
  have hresponses : ∀ {key : EndpointKey} {e : IEndpoint} {i : ℕ},
      firstListed record.endpoints key = some (e, i) →
      (readListed aes env₁ db₁ record key = readListed aes env₂ db₂ record key ↔
        (e.SaltEmpty (env₁.random i) (db₁.endpoints.lookup key) ↔
          e.SaltEmpty (env₂.random i) (db₂.endpoints.lookup key))) := by
    intro key e i hfirst
    obtain rfl := key_of_firstListed hfirst
    rw [readListed, readListed, hfirst, Option.map_some, Option.map_some, Option.some.injEq]
    exact IEndpoint.responses_eq_iff (hforgets₁.endpoints _ e i hfirst)
      (hforgets₂.endpoints _ e i hfirst)
  rw [forall_key_iff hresponses, (signature_eq_iff record db₁).mpr hforgets₁.signature,
    (signature_eq_iff record db₂).mpr hforgets₂.signature]
  constructor
  · rintro ⟨⟨-, hidType⟩, -, hsalts, -⟩
    exact ⟨hforgets₁, hforgets₂, hidType, hsalts⟩
  · intro hforgets
    exact ⟨⟨rfl, hforgets.idType⟩, rfl, hforgets.salts, rfl⟩

/-- Whatever the two states are, writing the same descriptor in both makes it read the same
in both, with nothing of an earlier registration in either answer, exactly if the states
hold nothing that the request leaves out. The endpoints that are read are those of the
request in any case. -/
theorem replaced_iff_forgets (aes : Aes) (operation : Replacement) (record : IAASDescriptor)
    (hdistinct : (record.endpoints.map IEndpoint.key).Nodup) (env₁ env₂ : CallEnv) (db₁ db₂ : Db)
    (h₁ : (operation.call env₁ record).succeeds aes db₁ = true)
    (h₂ : (operation.call env₂ record).succeeds aes db₂ = true) :
    let answer₁ := readAASDescriptorByAasId aes ((operation.call env₁ record).run aes db₁)
      record.identification.id
    let answer₂ := readAASDescriptorByAasId aes ((operation.call env₂ record).run aes db₂)
      record.identification.id
    (answer₁ = answer₂ ∧ record.HoldsOnly answer₁ ∧ record.HoldsOnly answer₂ ↔
      operation.Forgets aes record env₁ env₂ db₁ db₂) ∧
    answer₁.map (fun d => d.endpoints.map EndpointResponse.key) =
      .ok (record.endpoints.map IEndpoint.key : Multiset EndpointKey) := by
  intro answer₁ answer₂
  have heffect₁ := Replacement.takesEffect_of_succeeds h₁
  have heffect₂ := Replacement.takesEffect_of_succeeds h₂
  constructor
  · rw [holdsOnly_iff hdistinct heffect₁, holdsOnly_iff hdistinct heffect₂]
    constructor
    · rintro ⟨hsame, hforgets₁, hforgets₂⟩
      exact (reads_eq_iff heffect₁ heffect₂ hforgets₁ hforgets₂).mp hsame
    · intro hforgets
      exact ⟨(reads_eq_iff heffect₁ heffect₂ hforgets.first hforgets.second).mpr hforgets,
        hforgets.first, hforgets.second⟩
  · rw [show answer₁ = _ from read_of_takesEffect Replacement.written heffect₁]
    exact congrArg Except.ok (map_key_readListed hdistinct)

/-- Another descriptor is registered with the credentials of its endpoint and deleted. -/
def deletedDescriptor : List Call :=
  [.createAASDescriptor (sampleEnv firstSalt)
      (sampleRecord "other" "otherAsset" (sampleEndpoint (.string "alice") (.string "secret"))),
    .deleteAasDescriptorByAasId (sampleEnv firstSalt) "other"]

def deletedDescriptorDb : Db :=
  (Call.deleteAasDescriptorByAasId (sampleEnv firstSalt) "other").run sampleAes
    ((Call.createAASDescriptor (sampleEnv firstSalt) (sampleRecord "other" "otherAsset"
      (sampleEndpoint (.string "alice") (.string "secret")))).run sampleAes Db.empty)

/-- A descriptor with the same endpoint, for which no credentials are given. -/
def withoutCredentials : IAASDescriptor :=
  sampleRecord "aas" "asset" (sampleEndpoint .undefined .undefined)

/-- The same descriptor with credentials of its own. -/
def ownCredentials : IAASDescriptor :=
  sampleRecord "aas" "asset" (sampleEndpoint (.string "bob") .null)

/-- Read twice in the same state, the answer is the same and holds the password of the
deleted descriptor. Given anew with credentials, the endpoint is read with these in both
states. -/
theorem replaced_iff_forgets_deletedDescriptor :
    ¬ Replacement.Forgets sampleAes .upsertAASDescriptor withoutCredentials
        (sampleEnv secondSalt) (sampleEnv secondSalt) deletedDescriptorDb deletedDescriptorDb ∧
      Replacement.Forgets sampleAes .upsertAASDescriptor ownCredentials (sampleEnv firstSalt)
        (sampleEnv secondSalt) Db.empty deletedDescriptorDb := by
  constructor
  · intro hforgets
    have hboth := (replaced_iff_forgets sampleAes .upsertAASDescriptor withoutCredentials
      (by decide) (sampleEnv secondSalt) (sampleEnv secondSalt) deletedDescriptorDb
      deletedDescriptorDb (by decide) (by decide)).1.mpr hforgets
    exact absurd hboth.2.1 (by decide)
  · refine (replaced_iff_forgets sampleAes .upsertAASDescriptor ownCredentials (by decide)
      (sampleEnv firstSalt) (sampleEnv secondSalt) Db.empty deletedDescriptorDb (by decide)
      (by decide)).1.mp ⟨?_, ?_, ?_⟩
    · decide +kernel
    · decide +kernel
    · decide +kernel

/-- The endpoint is read with user and password of the deleted descriptor. -/
theorem not_replaced_deletedDescriptor :
    ¬ ∀ (aes : Aes) (calls₁ calls₂ : List Call) (db₁ db₂ : Db),
      exec (step aes) Db.empty calls₁ = some db₁ → exec (step aes) Db.empty calls₂ = some db₂ →
      ∀ (operation : Replacement) (record : IAASDescriptor),
        (record.endpoints.map IEndpoint.key).Nodup → ∀ env₁ env₂ : CallEnv,
        (operation.call env₁ record).succeeds aes db₁ = true →
        (operation.call env₂ record).succeeds aes db₂ = true →
        let answer₁ := readAASDescriptorByAasId aes ((operation.call env₁ record).run aes db₁)
          record.identification.id
        let answer₂ := readAASDescriptorByAasId aes ((operation.call env₂ record).run aes db₂)
          record.identification.id
        answer₁ = answer₂ ∧ record.HoldsOnly answer₁ ∧ record.HoldsOnly answer₂ := by
  intro h
  have hboth := h sampleAes [] deletedDescriptor Db.empty deletedDescriptorDb rfl rfl
    .upsertAASDescriptor withoutCredentials (by decide) (sampleEnv secondSalt)
    (sampleEnv secondSalt) (by decide) (by decide)
  exact absurd hboth.2.2 (by decide)

end Replacement

end I40Aas.EndpointRegistry
