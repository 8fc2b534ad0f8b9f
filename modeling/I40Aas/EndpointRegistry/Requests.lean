import I40Aas.EndpointRegistry.Calls

/-!
The body of a request as it comes in, and `upsertAASDescriptor` of it.
`validateAASDescriptorRequest` asks for an id of the descriptor, an id of the asset and
the endpoints, and for nothing inside them, so it lets through what the database does not
take. By then the asset has been saved in a statement of its own.
-/

namespace I40Aas.EndpointRegistry

open I40Aas.Lib

structure IdentifierRequest where
  id : Field
  idType : Field
  deriving DecidableEq, Repr

structure EndpointRequest where
  address : Field
  type : Field
  target : Field
  user : Field
  password : Field
  salt : Field
  tlsCertificate : Field
  certificateX509I40 : Field
  deriving DecidableEq, Repr

/-- What stands for the endpoints. -/
inductive EndpointsRequest
  /-- Nothing, or a value that counts as false. -/
  | absent
  /-- A value that counts as true and has no `map`. -/
  | noArray
  | array (endpoints : List EndpointRequest)
  deriving DecidableEq, Repr

structure AASDescriptorRequest where
  identification : IdentifierRequest
  asset : IdentifierRequest
  endpoints : EndpointsRequest
  signature : Field
  deriving DecidableEq, Repr

def validateAASDescriptorRequest (r : AASDescriptorRequest) : Bool :=
  r.identification.id.truthy && r.endpoints ≠ .absent && r.asset.id.truthy

/-! ### The rows of a request -/

/-- The id and the type the row gets, where a type that is not given stays as it is
stored. `none`: one of them would be null. -/
def IdentifierRequest.row (i : IdentifierRequest) (stored : String → Option String) :
    Option IIdentifier :=
  match i.id with
  | .string id => (i.idType.assign (stored id)).map fun idType => ⟨id, idType⟩
  | _ => none

/-- `none`: a column of the key would be null. -/
def EndpointRequest.row (e : EndpointRequest) : Option IEndpoint :=
  match e.address, e.type with
  | .string address, .string type =>
      some
        { address := address
          type := type
          target := e.target
          user := e.user
          password := e.password
          salt := e.salt
          tlsCertificate := e.tlsCertificate
          certificateX509I40 := e.certificateX509I40 }
  | _, _ => none

def Db.storedIdType (db : Db) (aasId : String) : Option String :=
  (db.aasDescriptors.lookup aasId).map (·.idType)

/-- `none`: a column that must not be null would be. -/
def AASDescriptorRequest.rows (r : AASDescriptorRequest) (db : Db)
    (endpoints : List EndpointRequest) : Option IAASDescriptor := do
  let identification ← r.identification.row db.storedIdType
  let asset ← r.asset.row db.assets.lookup
  let endpoints ← endpoints.mapM EndpointRequest.row
  return {
    identification := identification
    asset := asset
    endpoints := endpoints
    signature := r.signature }

/-- The save of the descriptor. Encrypting does not look at the keys, so that only the
endpoints with a key are encrypted here. -/
def Db.saveRequest (aes : Aes) (random : ℕ → Random) (db : Db) (r : AASDescriptorRequest)
    (endpoints : List EndpointRequest) : Option Db :=
  (r.rows db endpoints).bind fun record =>
    db.saveAASDescriptor record.identification record.asset record.signature
      (encryptEndpoints aes random record.endpoints)

/-- `upsertAASDescriptor`, statement by statement. -/
def upsertRequest (aes : Aes) (env : CallEnv) (db : Db) (r : AASDescriptorRequest) :
    Except RegistryError Unit × Db :=
  if env.answers 0 then
    match r.asset.row db.assets.lookup with
    | none => (.error .queryFailedError, db)
    | some asset =>
        let db := db.saveAsset asset
        match r.endpoints with
        | .array endpoints =>
            finish (env.answers 1) (db.saveRequest aes env.random r endpoints) db ()
        | _ => (.error .typeError, db)
  else (.error .queryFailedError, db)

/-! ### Requests that give everything -/

def IEndpoint.request (e : IEndpoint) : EndpointRequest where
  address := .string e.address
  type := .string e.type
  target := e.target
  user := e.user
  password := e.password
  salt := e.salt
  tlsCertificate := e.tlsCertificate
  certificateX509I40 := e.certificateX509I40

def IIdentifier.request (i : IIdentifier) : IdentifierRequest := ⟨.string i.id, .string i.idType⟩

def IAASDescriptor.request (record : IAASDescriptor) : AASDescriptorRequest where
  identification := record.identification.request
  asset := record.asset.request
  endpoints := .array (record.endpoints.map IEndpoint.request)
  signature := record.signature

@[simp] theorem IIdentifier.row_request (i : IIdentifier) (stored : String → Option String) :
    i.request.row stored = some i := rfl

@[simp] theorem IEndpoint.row_request (e : IEndpoint) : e.request.row = some e := rfl

theorem mapM_row_request (endpoints : List IEndpoint) :
    (endpoints.map IEndpoint.request).mapM EndpointRequest.row = some endpoints := by
  induction endpoints with
  | nil => rfl
  | cons e endpoints ih =>
      rw [List.map_cons, List.mapM_cons, ih]
      rfl

theorem IAASDescriptor.rows_request (record : IAASDescriptor) (db : Db) :
    record.request.rows db (record.endpoints.map IEndpoint.request) = some record := by
  rw [AASDescriptorRequest.rows, mapM_row_request]
  rfl

/-- Of a request that gives everything, the operation is the one on records. -/
theorem upsertRequest_request (aes : Aes) (env : CallEnv) (db : Db) (record : IAASDescriptor) :
    upsertRequest aes env db record.request =
      ((upsertAASDescriptor aes env db record).1.map fun _ => (),
        (upsertAASDescriptor aes env db record).2) := by
  have hrows := record.rows_request (db.saveAsset record.asset)
  unfold upsertRequest upsertAASDescriptor
  by_cases h0 : env.answers 0 = true
  · have hasset : record.request.asset.row db.assets.lookup = some record.asset := rfl
    have hendpoints : record.request.endpoints =
        .array (record.endpoints.map IEndpoint.request) := rfl
    rw [if_pos h0, if_pos h0, hasset, hendpoints]
    dsimp only
    rw [Db.saveRequest, hrows, Option.bind_some]
    cases (db.saveAsset record.asset).saveAASDescriptor record.identification record.asset
        record.signature (encryptEndpoints aes env.random record.endpoints) with
    | none => rw [finish_of_none, finish_of_none]; rfl
    | some saved =>
        rw [finish_of_some, finish_of_some]
        split <;> rfl
  · rw [if_neg h0, if_neg h0]
    rfl

/-! ### What a failed request leaves -/

/-- All rows of all tables are the same. -/
structure Db.SameRows (db db' : Db) : Prop where
  assets : ∀ id, db'.assets.lookup id = db.assets.lookup id
  endpoints : ∀ key, db'.endpoints.lookup key = db.endpoints.lookup key
  aasDescriptors : ∀ id, db'.aasDescriptors.lookup id = db.aasDescriptors.lookup id
  semanticProtocols : ∀ id, db'.semanticProtocols.lookup id = db.semanticProtocols.lookup id
  roles : db'.roles = db.roles

/-- The asset of the request is given with a type that is not the stored one. -/
def AASDescriptorRequest.ChangesAsset (r : AASDescriptorRequest) (db : Db) : Prop :=
  ∃ id idType, r.asset = ⟨.string id, .string idType⟩ ∧ db.assets.lookup id ≠ some idType

/-- The database can take the descriptor: the endpoints are an array, no column of a key
and no type is missing, no other descriptor has the asset, and no endpoint that the
descriptor does not list yet is given twice. -/
def AASDescriptorRequest.Savable (r : AASDescriptorRequest) (db : Db) : Prop :=
  ∃ endpoints record, r.endpoints = .array endpoints ∧ r.rows db endpoints = some record ∧
    db.assetTaken record.identification.id record.asset.id = false ∧
    db.joinsTwice record.identification.id (record.endpoints.map IEndpoint.key) = false

section

variable {aes : Aes} {env : CallEnv} {db : Db} {r : AASDescriptorRequest}

theorem IdentifierRequest.row_eq_some_iff {i : IdentifierRequest}
    {stored : String → Option String} {identifier : IIdentifier} :
    i.row stored = some identifier ↔
      i.id = .string identifier.id ∧ i.idType.assign (stored identifier.id) =
        some identifier.idType := by
  obtain ⟨id, idType⟩ := i
  cases id with
  | undefined => simp [IdentifierRequest.row]
  | null => simp [IdentifierRequest.row]
  | string id =>
      obtain ⟨id', idType'⟩ := identifier
      simp only [IdentifierRequest.row, Option.map_eq_some_iff, IIdentifier.mk.injEq,
        Field.string.injEq]
      constructor
      · rintro ⟨_, hidType, rfl, rfl⟩
        exact ⟨rfl, hidType⟩
      · rintro ⟨rfl, hidType⟩
        exact ⟨_, hidType, rfl, rfl⟩

/-- Once the asset is saved, the request has the rows it had before. -/
theorem AASDescriptorRequest.rows_saveAsset {asset : IIdentifier}
    (h : r.asset.row db.assets.lookup = some asset) (endpoints : List EndpointRequest) :
    r.rows (db.saveAsset asset) endpoints = r.rows db endpoints := by
  obtain ⟨hid, hidType⟩ := IdentifierRequest.row_eq_some_iff.mp h
  have hstored : (db.saveAsset asset).assets.lookup asset.id = some asset.idType :=
    AList.lookup_insert _
  have hasset : r.asset.row (db.saveAsset asset).assets.lookup = some asset := by
    refine IdentifierRequest.row_eq_some_iff.mpr ⟨hid, ?_⟩
    rw [hstored]
    cases hgiven : r.asset.idType with
    | undefined => rfl
    | null =>
        rw [hgiven] at hidType
        cases hidType
    | string idType =>
        rw [hgiven] at hidType
        exact hidType
  rw [AASDescriptorRequest.rows, AASDescriptorRequest.rows, hasset, h]
  rfl

/-- Saving the asset changes nothing exactly if the request does not change it. -/
theorem sameRows_saveAsset_iff {asset : IIdentifier}
    (h : r.asset.row db.assets.lookup = some asset) :
    db.SameRows (db.saveAsset asset) ↔ ¬ r.ChangesAsset db := by
  obtain ⟨hid, hidType⟩ := IdentifierRequest.row_eq_some_iff.mp h
  have hsame : db.SameRows (db.saveAsset asset) ↔
      db.assets.lookup asset.id = some asset.idType := by
    constructor
    · intro hrows
      have hstored : (db.saveAsset asset).assets.lookup asset.id = some asset.idType :=
        AList.lookup_insert _
      rw [← hrows.assets, hstored]
    · intro hstored
      refine ⟨fun id => ?_, fun _ => rfl, fun _ => rfl, fun _ => rfl, rfl⟩
      by_cases hid' : id = asset.id
      · subst hid'
        rw [hstored]
        exact AList.lookup_insert _
      · exact AList.lookup_insert_ne hid'
  rw [hsame]
  constructor
  · rintro hstored ⟨id, idType, hasset, hne⟩
    rw [hasset] at hid hidType
    obtain rfl := Field.string.inj hid
    exact hne (hstored.trans hidType.symm)
  · intro hnot
    cases hgiven : r.asset.idType with
    | undefined =>
        rw [hgiven] at hidType
        exact hidType
    | null =>
        rw [hgiven] at hidType
        cases hidType
    | string idType =>
        rw [hgiven] at hidType
        by_contra hne
        refine hnot ⟨asset.id, asset.idType, ?_, hne⟩
        obtain rfl := Option.some.inj hidType
        rw [← hid, ← hgiven]

theorem Db.saveRequest_isSome_iff {asset : IIdentifier}
    (h : r.asset.row db.assets.lookup = some asset) {random : ℕ → Random}
    {endpoints : List EndpointRequest} (hendpoints : r.endpoints = .array endpoints) :
    ((db.saveAsset asset).saveRequest aes random r endpoints).isSome = true ↔ r.Savable db := by
  have hrefuses : ∀ aasId assetId keys, (db.saveAsset asset).refuses aasId assetId keys =
      db.refuses aasId assetId keys := fun _ _ _ => rfl
  rw [Db.saveRequest, AASDescriptorRequest.rows_saveAsset h]
  constructor
  · intro hsome
    cases hrows : r.rows db endpoints with
    | none =>
        rw [hrows] at hsome
        cases hsome
    | some record =>
        rw [hrows, Option.bind_some, Db.saveAASDescriptor_isSome_iff, hrefuses,
          map_key_encryptEndpoints] at hsome
        exact ⟨endpoints, record, hendpoints, hrows, Db.refuses_eq_false_iff.mp hsome⟩
  · rintro ⟨endpoints', record, hendpoints', hrows, hfree⟩
    obtain rfl := EndpointsRequest.array.inj (hendpoints.symm.trans hendpoints')
    rw [hrows, Option.bind_some, Db.saveAASDescriptor_isSome_iff, hrefuses,
      map_key_encryptEndpoints]
    exact Db.refuses_eq_false_iff.mpr hfree

variable (aes) in
/-- What a request leaves that throws once its asset is saved. -/
theorem upsertRequest_of_asset {asset : IIdentifier} (h0 : env.answers 0 = true)
    (h : r.asset.row db.assets.lookup = some asset) :
    ((upsertRequest aes env db r).1.isOk = true ↔ env.answers 1 = true ∧ r.Savable db) ∧
      ((upsertRequest aes env db r).1.isOk = false →
        (upsertRequest aes env db r).2 = db.saveAsset asset) := by
  have hnotArray : (∀ endpoints, r.endpoints ≠ .array endpoints) → ¬ r.Savable db :=
    fun hne ⟨endpoints, _, hendpoints, _⟩ => hne endpoints hendpoints
  unfold upsertRequest
  rw [if_pos h0, h]
  dsimp only
  cases hendpoints : r.endpoints with
  | array endpoints =>
      refine ⟨?_, finish_eq_of_throws⟩
      rw [finish_isOk_iff, Db.saveRequest_isSome_iff h hendpoints]
  | absent =>
      refine ⟨⟨(fun h => nomatch h), fun h => ?_⟩, fun _ => rfl⟩
      exact absurd h.2 (hnotArray fun _ heq => nomatch hendpoints.symm.trans heq)
  | noArray =>
      refine ⟨⟨(fun h => nomatch h), fun h => ?_⟩, fun _ => rfl⟩
      exact absurd h.2 (hnotArray fun _ heq => nomatch hendpoints.symm.trans heq)

/-- A request that throws leaves all rows as they are, unless it changes its asset and
the descriptor is not saved then. -/
theorem upsertRequest_kept_iff (aes : Aes) (env : CallEnv) (db : Db) (r : AASDescriptorRequest) :
    (∀ error, (upsertRequest aes env db r).1 = .error error →
        db.SameRows (upsertRequest aes env db r).2) ↔
      ¬ (env.answers 0 = true ∧ r.ChangesAsset db ∧ ¬ (env.answers 1 = true ∧ r.Savable db)) := by
  have hrefl : db.SameRows db := ⟨fun _ => rfl, fun _ => rfl, fun _ => rfl, fun _ => rfl, rfl⟩
  by_cases h0 : env.answers 0 = true
  · cases hasset : r.asset.row db.assets.lookup with
    | none =>
        have hsame : (upsertRequest aes env db r).2 = db := by
          rw [upsertRequest, if_pos h0, hasset]
        have hkeeps : ¬ r.ChangesAsset db := by
          rintro ⟨id, idType, heq, -⟩
          rw [heq] at hasset
          cases hasset
        rw [hsame]
        exact ⟨fun _ h => hkeeps h.2.1, fun _ _ _ => hrefl⟩
    | some asset =>
        obtain ⟨hok, hleft⟩ := upsertRequest_of_asset aes h0 hasset
        have hsame := sameRows_saveAsset_iff hasset
        cases hresult : (upsertRequest aes env db r).1 with
        | ok value =>
            have hsaved := hok.mp (by rw [hresult]; rfl)
            exact ⟨fun _ h => h.2.2 hsaved, fun _ error h => nomatch h⟩
        | error error =>
            have hrefused : ¬ (env.answers 1 = true ∧ r.Savable db) := by
              intro hsaved
              have htrue := hok.mpr hsaved
              rw [hresult] at htrue
              cases htrue
            rw [hleft (by rw [hresult]; rfl), hsame]
            exact ⟨fun h hbad => h error rfl hbad.2.1, fun h _ _ hchanges =>
              h ⟨h0, hchanges, hrefused⟩⟩
  · have hsame : (upsertRequest aes env db r).2 = db := by
      rw [upsertRequest, if_neg h0]
    rw [hsame]
    exact ⟨fun _ h => h0 h.1, fun _ _ _ => hrefl⟩

end

/-- The asset of another descriptor, given with another type. -/
def takenAsset : AASDescriptorRequest where
  identification := ⟨.string "other", .string "IRI"⟩
  asset := ⟨.string "asset", .string "Custom"⟩
  endpoints := .array []
  signature := .undefined

def oneDescriptor : Call :=
  .createAASDescriptor (sampleEnv firstSalt)
    (sampleRecord "aas" "asset" (sampleEndpoint .undefined .undefined))

/-- The request is refused, and the asset of the other descriptor has a new type. -/
theorem not_upsertRequest_kept_takenAsset :
    ¬ ∀ (aes : Aes) (calls : List Call) (db : Db), exec (step aes) Db.empty calls = some db →
      ∀ (env : CallEnv) (r : AASDescriptorRequest), validateAASDescriptorRequest r = true →
        ∀ error, (upsertRequest aes env db r).1 = .error error →
          db.SameRows (upsertRequest aes env db r).2 := by
  intro h
  have hsame := h sampleAes [oneDescriptor] (oneDescriptor.run sampleAes Db.empty) rfl
    (sampleEnv secondSalt) takenAsset (by decide) .queryFailedError (by decide)
  exact absurd (hsame.assets "asset") (by decide)

end I40Aas.EndpointRegistry
