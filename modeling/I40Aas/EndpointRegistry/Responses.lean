import I40Aas.EndpointRegistry.Requests

/-!
What a request that writes a descriptor is answered with. The endpoints of the entity are
the objects of the request, so that the encryption writes into the record of the caller,
and the handlers send that record back. It is the record that was submitted exactly if
there was nothing to encrypt (`echoes_iff`).
-/

namespace I40Aas.EndpointRegistry

open I40Aas.Lib

/-- The properties that were given are still there; the others may have been filled in. -/
structure IEndpoint.FilledIn (e left : IEndpoint) : Prop where
  key : left.key = e.key
  target : e.target ≠ .undefined → left.target = e.target
  user : e.user ≠ .undefined → left.user = e.user
  password : e.password ≠ .undefined → left.password = e.password
  salt : e.salt ≠ .undefined → left.salt = e.salt
  tlsCertificate : e.tlsCertificate ≠ .undefined → left.tlsCertificate = e.tlsCertificate
  certificateX509I40 :
    e.certificateX509I40 ≠ .undefined → left.certificateX509I40 = e.certificateX509I40

/-- TypeORM, as far as `save` works on the objects it is given: it may fill in columns
that an object leaves undefined. -/
structure Orm where
  saved : Db → List IEndpoint → List IEndpoint
  filledIn : ∀ db endpoints, List.Forall₂ IEndpoint.FilledIn endpoints (saved db endpoints)

/-- The record after the save of its entity. -/
def Orm.record (orm : Orm) (db : Db) (record : IAASDescriptor) : IAASDescriptor :=
  { record with endpoints := orm.saved db record.endpoints }

/-- AES gives a text that is longer than the one it is given. -/
def Aes.Expands (aes : Aes) : Prop :=
  ∀ random text, text.length < (aes.encrypt random text).length

/-! ### The handlers -/

/-- `PUT /admin/AASDescriptors`, `PUT /AASDescriptors` and `PATCH /AASDescriptors/:aasId`. -/
inductive Route
  | putAdmin
  | put
  | patch (aasId : String)
  deriving DecidableEq, Repr

section

variable (aes : Aes) (orm : Orm) (env : CallEnv) (db : Db)

/-- The operation of the registry, up to the save. -/
def Route.operation (record : IAASDescriptor) : Route → Except RegistryError IAASDescriptor × Db
  | putAdmin => upsertAASDescriptor aes env db record
  | put => createAASDescriptor aes env db record
  | patch _ => updateAasDescriptorByAasId aes env db record

/-- The record that the operation returns. -/
def Route.returned (route : Route) (record : IAASDescriptor) :
    Except RegistryError IAASDescriptor :=
  (route.operation aes env db record).1.map (orm.record db)

/-- The record of the request after the operation. -/
def IAASDescriptor.left (record : IAASDescriptor) : IAASDescriptor :=
  orm.record db { record with endpoints := encryptEndpoints aes env.random record.endpoints }

/-- The body of the answer: PUT sends the body of the request back, PATCH the result of
the operation. -/
def Route.handler (route : Route) (record : IAASDescriptor) :
    Except RegistryError IAASDescriptor :=
  if validateAASDescriptorRequest record.request then
    match route with
    | putAdmin => (Route.putAdmin.returned aes orm env db record).map fun _ =>
        record.left aes orm env db
    | put => (Route.put.returned aes orm env db record).map fun _ => record.left aes orm env db
    | patch aasId =>
        if aasId ≠ "" ∧ aasId = record.identification.id then
          (Route.patch aasId).returned aes orm env db record
        else
          .error (.http422Error "Mandatory path parameters: aasId is not found in request")
  else .error (.http422Error "Missing required fields in Request: idShort")

/-- The operation returns the record as it was submitted, and the handler sends nothing
else. -/
structure Echoes (route : Route) (record : IAASDescriptor) : Prop where
  returned : route.returned aes orm env db record = .ok record
  sent : ∀ body, route.handler aes orm env db record = .ok body → body = record

end

/-- No endpoint has credentials to encrypt. -/
def IAASDescriptor.Plain (record : IAASDescriptor) : Prop :=
  ∀ e ∈ record.endpoints, e.user.truthy = false ∧ e.password.truthy = false

instance (record : IAASDescriptor) : Decidable record.Plain :=
  inferInstanceAs (Decidable (∀ e ∈ _, _ ∧ _))

section

variable {aes : Aes} {orm : Orm} {env : CallEnv} {db : Db} {record : IAASDescriptor}

/-! ### The record after the operation -/

theorem finish_eq_ok {α : Type*} {answers : Bool} {saved : Option Db} {value : α}
    (h : (finish answers saved db value).1.isOk = true) :
    (finish answers saved db value).1 = .ok value := by
  obtain ⟨hanswers, hsaved⟩ := finish_isOk_iff.mp h
  obtain ⟨db', rfl⟩ := Option.isSome_iff_exists.mp hsaved
  rw [finish_of_some, if_pos hanswers]

/-- Whatever the operation, the record it returns is the one of the request. -/
theorem Route.returned_eq {route : Route}
    (h : (route.operation aes env db record).1.isOk = true) :
    route.returned aes orm env db record = .ok (record.left aes orm env db) := by
  have hresult : (route.operation aes env db record).1 =
      .ok { record with endpoints := encryptEndpoints aes env.random record.endpoints } := by
    cases route with
    | putAdmin =>
        simp only [Route.operation, upsertAASDescriptor] at h ⊢
        split_ifs at h ⊢
        · exact finish_eq_ok h
        · cases h
    | put =>
        simp only [Route.operation, createAASDescriptor] at h ⊢
        split_ifs at h ⊢
        · split at h
          · exact finish_eq_ok h
          · cases h
        · cases h
    | patch aasId =>
        simp only [Route.operation, updateAasDescriptorByAasId] at h ⊢
        split_ifs at h ⊢
        · split at h
          · exact finish_eq_ok h
          · cases h
        · cases h
  rw [Route.returned, hresult]
  rfl

theorem Route.handler_eq {route : Route}
    (h : (route.operation aes env db record).1.isOk = true) {body : IAASDescriptor}
    (hbody : route.handler aes orm env db record = .ok body) :
    body = record.left aes orm env db := by
  have hreturned : route.returned aes orm env db record = .ok (record.left aes orm env db) :=
    Route.returned_eq h
  unfold Route.handler at hbody
  split at hbody
  · cases route with
    | putAdmin =>
        simp only [hreturned] at hbody
        exact (Except.ok.inj hbody).symm
    | put =>
        simp only [hreturned] at hbody
        exact (Except.ok.inj hbody).symm
    | patch aasId =>
        simp only [hreturned] at hbody
        split at hbody
        · exact (Except.ok.inj hbody).symm
        · cases hbody
  · cases hbody

/-! ### What the encryption writes -/

/-- A credential that is encrypted is another text. -/
theorem Sealed.ne (haes : aes.Expands) {salt given stored : Field}
    (h : Sealed aes salt given stored) (htruthy : given.truthy = true) :
    stored ≠ given ∧ stored ≠ .undefined := by
  cases h with
  | undefined => cases htruthy
  | null => cases htruthy
  | empty => cases htruthy
  | @encrypted text random value htext hvalue hsalt =>
      refine ⟨fun heq => ?_, (fun hno => nomatch hno)⟩
      have hlonger := haes random (value ++ "." ++ text)
      rw [Field.string.inj heq, String.length_append] at hlonger
      omega

theorem IEndpoint.encryptCredentials_of_plain (random : Random) {e : IEndpoint}
    (h : e.user.truthy = false ∧ e.password.truthy = false) :
    e.encryptCredentials aes random = e := by
  rw [IEndpoint.encryptCredentials, IEndpoint.encryptUser_of_not_truthy aes random (by simp [h.1]),
    IEndpoint.encryptPassword_of_not_truthy aes random (by simp [h.2])]

theorem encryptEndpoints_of_plain (h : record.Plain) (random : ℕ → Random) :
    encryptEndpoints aes random record.endpoints = record.endpoints := by
  have heach : ∀ p ∈ record.endpoints.zipIdx,
      p.1.encryptCredentials aes (random p.2) = p.1 := fun p hp =>
    IEndpoint.encryptCredentials_of_plain _ (h p.1 (List.fst_mem_of_mem_zipIdx hp))
  rw [encryptEndpoints, List.map_congr_left heach, List.zipIdx_map_fst]

/-- An encrypted credential is not filled in to the plain one. -/
theorem IEndpoint.plain_of_filledIn (haes : aes.Expands) {random : Random} {e : IEndpoint}
    (h : (e.encryptCredentials aes random).FilledIn e) :
    e.user.truthy = false ∧ e.password.truthy = false := by
  obtain ⟨user, password, huser, hpassword, heq⟩ := e.encryptCredentials_spec aes random
  rw [heq] at h
  constructor
  · by_contra htruthy
    obtain ⟨hne, hgiven⟩ := huser.ne haes (by simpa using htruthy)
    exact hne (h.user hgiven).symm
  · by_contra htruthy
    obtain ⟨hne, hgiven⟩ := hpassword.ne haes (by simpa using htruthy)
    exact hne (h.password hgiven).symm

theorem plain_of_forall₂ (haes : aes.Expands) (random : ℕ → Random) (endpoints : List IEndpoint)
    (n : ℕ) (h : List.Forall₂ IEndpoint.FilledIn
      ((endpoints.zipIdx n).map fun p => p.1.encryptCredentials aes (random p.2)) endpoints) :
    ∀ e ∈ endpoints, e.user.truthy = false ∧ e.password.truthy = false := by
  induction endpoints generalizing n with
  | nil => simp
  | cons e endpoints ih =>
      rw [List.zipIdx_cons, List.map_cons] at h
      cases h with
      | cons hfilled htail =>
          intro other hother
          rcases List.mem_cons.mp hother with rfl | hother
          · exact IEndpoint.plain_of_filledIn haes hfilled
          · exact ih (n + 1) htail other hother

theorem IAASDescriptor.left_eq_iff (haes : aes.Expands) :
    record.left aes orm env db = record ↔
      record.Plain ∧ orm.saved db record.endpoints = record.endpoints := by
  have hleft : record.left aes orm env db = record ↔
      orm.saved db (encryptEndpoints aes env.random record.endpoints) = record.endpoints := by
    constructor
    · intro h
      exact congrArg IAASDescriptor.endpoints h
    · intro h
      rw [IAASDescriptor.left, Orm.record, h]
  rw [hleft]
  constructor
  · intro h
    have hfilled := orm.filledIn db (encryptEndpoints aes env.random record.endpoints)
    rw [h] at hfilled
    have hplain : record.Plain := plain_of_forall₂ haes env.random record.endpoints 0 hfilled
    rw [encryptEndpoints_of_plain hplain] at h
    exact ⟨hplain, h⟩
  · rintro ⟨hplain, h⟩
    rw [encryptEndpoints_of_plain hplain, h]

/-- In every state, what a request that is accepted is answered with is the record as it
was submitted, exactly if no endpoint has credentials and the save fills in nothing. -/
theorem echoes_iff (aes : Aes) (haes : aes.Expands) (orm : Orm) (env : CallEnv) (db : Db)
    (route : Route) (record : IAASDescriptor)
    (hsucceeds : (route.operation aes env db record).1.isOk = true) :
    Echoes aes orm env db route record ↔
      record.Plain ∧ orm.saved db record.endpoints = record.endpoints := by
  have hleft : record.left aes orm env db = record ↔
      record.Plain ∧ orm.saved db record.endpoints = record.endpoints :=
    IAASDescriptor.left_eq_iff haes
  rw [← hleft]
  constructor
  · intro h
    exact Except.ok.inj ((Route.returned_eq hsucceeds).symm.trans h.returned)
  · intro h
    refine ⟨(Route.returned_eq hsucceeds).trans (congrArg Except.ok h), fun body hbody => ?_⟩
    exact (Route.handler_eq hsucceeds hbody).trans h

/-- Nothing is filled in. -/
def leavingOrm : Orm where
  saved _ endpoints := endpoints
  filledIn _ _ := List.forall₂_same.mpr fun _ _ =>
    ⟨rfl, fun _ => rfl, fun _ => rfl, fun _ => rfl, fun _ => rfl, fun _ => rfl, fun _ => rfl⟩

theorem sampleAes_expands : sampleAes.Expands := by
  intro random text
  simp only [sampleAes, String.length_ofList, List.length_cons, String.length_toList]
  omega

/-- An endpoint that gives every property, so that there is nothing to fill in. -/
def givenEndpoint (user : Field) : IEndpoint where
  address := "http://aas.example"
  type := "http"
  target := .string "cloud"
  user := user
  password := .null
  salt := .null
  tlsCertificate := .null
  certificateX509I40 := .null

/-- Without credentials the record comes back. -/
theorem echoes_iff_plain : Echoes sampleAes leavingOrm (sampleEnv firstSalt) Db.empty .put
    (sampleRecord "aas" "asset" (givenEndpoint .null)) :=
  (echoes_iff sampleAes sampleAes_expands leavingOrm (sampleEnv firstSalt) Db.empty .put
    (sampleRecord "aas" "asset" (givenEndpoint .null)) (by decide)).mpr ⟨by decide, rfl⟩

/-- A user comes back encrypted, and the salt beside it. -/
theorem not_echoes_user :
    ¬ ∀ (aes : Aes), aes.Expands → ∀ (orm : Orm) (env : CallEnv) (db : Db) (route : Route)
      (record : IAASDescriptor), (route.operation aes env db record).1.isOk = true →
        Echoes aes orm env db route record := by
  intro h
  have hechoes := h sampleAes sampleAes_expands leavingOrm (sampleEnv firstSalt) Db.empty .put
    (sampleRecord "aas" "asset" (givenEndpoint (.string "alice"))) (by decide)
  have hsent := hechoes.sent (sampleRecord "aas" "asset"
    { givenEndpoint (.string "Ufirst.alice") with salt := .string "first" }) (by decide)
  exact absurd hsent (by decide)

end

end I40Aas.EndpointRegistry
