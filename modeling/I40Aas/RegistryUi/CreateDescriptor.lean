import I40Aas.EndpointRegistry.Isolation
import I40Aas.EndpointRegistry.Requests
import I40Aas.EndpointRegistry.RoundTrip
import I40Aas.Lib.ClientServer
import I40Aas.RegistryUi.Deletion

/-!
The page that creates a descriptor, together with the registry it sends it to. What the input
validation is for shows in the registry: a descriptor that leaves the page is valid and has
endpoints with distinct addresses, so that the registry takes it exactly if its id and its
asset are free, and reads it back as it stands in the form.
-/

namespace I40Aas.RegistryUi.CreateDescriptor

open I40Aas.Lib I40Aas.Lib.JavaScript I40Aas.EndpointRegistry

/-- The part of the model that belongs to a row of the endpoint details. -/
inductive Property
  | address
  | type
  | target
  | user
  | password
  | tlsCertificate
  | certificateX509I40
  deriving DecidableEq

/-- The two-way binding of a row. -/
def setProperty (value : String) (e : Endpoint) : Property → Endpoint
  | .address => { e with address := value }
  | .type => { e with type := value }
  | .target => { e with target := value }
  | .user => { e with user := value }
  | .password => { e with password := value }
  | .tlsCertificate => { e with tlsCertificate := value }
  | .certificateX509I40 => { e with certificateX509I40 := value }

/-- `models` counts the models that were set for the loaded descriptors, of which the id and
the id of the asset are read. The inputs of the ids are bound to the model, and `detail` is
the row that the endpoint details are bound to. -/
structure Page where
  models : ℕ
  aasDescriptors : List (String × String)
  data : Descriptor
  detail : ℕ
  aasIdError : Bool
  assetIdError : Bool
  addressError : Bool
  createEnabled : Bool

inductive Request
  | getAASDescriptors (model : ℕ)
  | putAASDescriptor (body : Descriptor)

/-- What was loaded for a model, or whether the descriptor was created. -/
inductive Answer
  | aasDescriptors (model : ℕ) (loaded : List (String × String))
  | notLoaded
  | created (ok : Bool)

/-! ### The controller -/

def initialData : Descriptor where
  asset := ⟨"", "IRI"⟩
  endpoints := []
  signature := ""
  identification := ⟨"", "IRI"⟩

def initiateModel (page : Page) : Page × List Request :=
  ({ page with
      models := page.models + 1
      aasDescriptors := []
      data := initialData },
    [.getAASDescriptors (page.models + 1)])

def aasIdDuplicate (page : Page) (aasId : String) : Bool :=
  page.aasDescriptors.any fun d => aasId = d.1

def assetIdDuplicate (page : Page) (assetId : String) : Bool :=
  page.aasDescriptors.any fun d => assetId = d.2

/-- Each is compared with all, itself included. -/
def epAddressDuplicate (endpoints : List Endpoint) : Bool :=
  endpoints.any fun ei => 1 < endpoints.countP fun ej => ei.address = ej.address

def checkCreateButton (page : Page) : Page :=
  { page with createEnabled := !(page.aasIdError || page.assetIdError || page.addressError) }

def setAddressValueState (page : Page) : Page :=
  checkCreateButton { page with addressError := epAddressDuplicate page.data.endpoints }

inductive Input
  | inputAasId
  | inputAssetId
  | endpointAddress

/-- An empty address is an error until `setAddressValueState` takes it back. -/
def onLiveChange (newValue : String) (page : Page) : Input → Page
  | .inputAasId => checkCreateButton
      { page with aasIdError := newValue = "" || aasIdDuplicate page newValue }
  | .inputAssetId => checkCreateButton
      { page with assetIdError := newValue = "" || assetIdDuplicate page newValue }
  | .endpointAddress => checkCreateButton
      (setAddressValueState { page with addressError := newValue = "" })

def addOneMoreEndpoint : Endpoint where
  address := "New Endpoint"
  type := "https"
  target := "cloud"
  user := ""
  password := ""
  tlsCertificate := ""
  certificateX509I40 := ""

def onAddNewEndpointPress (page : Page) : Page :=
  let endpoints := page.data.endpoints ++ [addOneMoreEndpoint]
  setAddressValueState
    { page with
      data := { page.data with endpoints := endpoints }
      detail := endpoints.length - 1 }

/-- The row that is shown after the one with the index is deleted. -/
def showDetailsOfEndpointWithIndex (index endpointCount : ℕ) : ℕ :=
  if index ≤ 0 then 0
  else if endpointCount - 1 < index then endpointCount - 1
  else index

def onDeleteEndpointPress (i : ℕ) (page : Page) : Page :=
  let data := onDeleteEndpoint (rowPath "/descriptor/endpoints".toList i) page.data
  setAddressValueState
    { page with
      data := data
      detail := showDetailsOfEndpointWithIndex (leadingDigit i) data.endpoints.length }

def onEdit (property : Property) (value : String) (page : Page) : Page :=
  let edited :=
    { page with
      data := { page.data with
        endpoints := page.data.endpoints.modify page.detail (setProperty value · property) } }
  if property = .address then onLiveChange value edited .endpointAddress else edited

def onCreatePress (page : Page) : Page × List Request :=
  match onCreateDescriptor page.data.identification.id page.data.asset.id page.data with
  | .put _ body => (page, [.putAASDescriptor body])
  | .cantBeEmpty =>
      if page.data.identification.id = "" then ({ page with aasIdError := true }, [])
      else ({ page with assetIdError := true }, [])
  | .noRoleAdded | .roleMandatory => (page, [])

def resetScreenToInitial (page : Page) : Page × List Request :=
  let (page, sent) := initiateModel page
  (checkCreateButton
    { page with
      aasIdError := false
      assetIdError := false
      addressError := false }, sent)

inductive Event
  | aasId (value : String)
  | aasIdType (key : String)
  | assetId (value : String)
  | assetIdType (key : String)
  | signature (value : String)
  | addNewEndpoint
  | deleteEndpoint (i : ℕ)
  | endpointPressed (i : ℕ)
  | edit (property : Property) (value : String)
  | create
  | cancel

/-- A button that is not enabled cannot be pressed, and only rows of the list can. -/
def event (page : Page) : Event → Option (Page × List Request)
  | .aasId value =>
      let identification := { page.data.identification with id := value }
      let data := { page.data with identification := identification }
      some (onLiveChange value { page with data := data } .inputAasId, [])
  | .aasIdType key =>
      let identification := { page.data.identification with idType := key }
      some ({ page with data := { page.data with identification := identification } }, [])
  | .assetId value =>
      let asset := { page.data.asset with id := value }
      some (onLiveChange value { page with data := { page.data with asset := asset } }
        .inputAssetId, [])
  | .assetIdType key =>
      let asset := { page.data.asset with idType := key }
      some ({ page with data := { page.data with asset := asset } }, [])
  | .signature value => some ({ page with data := { page.data with signature := value } }, [])
  | .addNewEndpoint => some (onAddNewEndpointPress page, [])
  | .deleteEndpoint i =>
      if i < page.data.endpoints.length then some (onDeleteEndpointPress i page, []) else none
  | .endpointPressed i =>
      if i < page.data.endpoints.length then some ({ page with detail := i }, []) else none
  | .edit property value => some (onEdit property value page, [])
  | .create => if page.createEnabled then some (onCreatePress page) else none
  | .cancel => some (resetScreenToInitial page)

/-- What is loaded for a model that was replaced meanwhile is not shown. -/
def receive (page : Page) : Answer → Page × List Request
  | .aasDescriptors model loaded =>
      if model = page.models then ({ page with aasDescriptors := loaded }, []) else (page, [])
  | .notLoaded => (page, [])
  | .created ok => if ok then resetScreenToInitial page else (page, [])

/-! ### The registry -/

/-- The endpoint in the body of the request, which has no salt. -/
def record (e : Endpoint) : IEndpoint where
  address := e.address
  type := e.type
  target := .string e.target
  user := .string e.user
  password := .string e.password
  salt := .undefined
  tlsCertificate := .string e.tlsCertificate
  certificateX509I40 := .string e.certificateX509I40

def body (data : Descriptor) : IAASDescriptor where
  identification := ⟨data.identification.id, data.identification.idType⟩
  asset := ⟨data.asset.id, data.asset.idType⟩
  endpoints := data.endpoints.map record
  signature := .string data.signature

section

variable (aes : Aes)

/-- `PUT /AASDescriptors`. -/
def put (env : CallEnv) (db : Db) (data : Descriptor) :
    Except RegistryError IAASDescriptor × Db :=
  if validateAASDescriptorRequest (body data).request then
    createAASDescriptor aes env db (body data)
  else (.error (.http422Error "Missing required fields in Request: idShort"), db)

def handle (env : CallEnv) (db : Db) : Request → Db × Answer
  | .getAASDescriptors model =>
      match listAllAASDescriptors aes db with
      | .ok ds => (db, .aasDescriptors model (ds.map fun d => (d.identification.id, d.asset.id)))
      | .error _ => (db, .notLoaded)
  | .putAASDescriptor data => ((put aes env db data).2, .created (put aes env db data).1.isOk)

/-- The page, the registry and what the others call there. -/
def session : ClientServer Db Call CallEnv Page Event Request Answer where
  call db call := call.run aes db
  handle := handle aes
  event := event
  receive := receive

end

def blankPage : Page where
  models := 0
  aasDescriptors := []
  data := initialData
  detail := 0
  aasIdError := false
  assetIdError := false
  addressError := false
  createEnabled := true

/-- The page when its view is there. -/
def onInit (db : Db) : ClientServer.State Db Page Request Answer where
  server := db
  client := (initiateModel blankPage).1
  requests := (initiateModel blankPage).2
  answers := []

/-- What reading the descriptor gives, but for the salts. -/
def submitted (data : Descriptor) : AASDescriptorResponse :=
  { (body data).submitted with signature := (some data.signature).filter (· ≠ "") }

/-! ### What the page lets through -/

theorem epAddressDuplicate_eq_false {endpoints : List Endpoint}
    (h : epAddressDuplicate endpoints = false) : (endpoints.map (·.address)).Nodup := by
  rw [List.nodup_iff_count_le_one]
  intro address
  by_cases hmem : address ∈ endpoints.map (·.address)
  · obtain ⟨ei, hei, rfl⟩ := List.mem_map.mp hmem
    have hcount := List.any_eq_false.mp h ei hei
    rw [decide_eq_true_iff, Nat.not_lt] at hcount
    refine Nat.le_trans (Nat.le_of_eq ?_) hcount
    rw [List.count, List.countP_map]
    refine List.countP_congr fun ej _ => ?_
    simp only [Function.comp_apply, beq_iff_eq, decide_eq_true_iff]
    exact eq_comm
  · rw [List.count_eq_zero_of_not_mem hmem]
    exact Nat.zero_le 1

/-- The error of the addresses is shown as long as two are the same, and as long as it is
shown the button is not enabled. -/
structure Validated (page : Page) : Prop where
  addresses : page.addressError = false → (page.data.endpoints.map (·.address)).Nodup
  createEnabled : page.createEnabled = true → page.addressError = false

/-- A descriptor that is sent. -/
structure Submittable (data : Descriptor) : Prop where
  aasId : data.identification.id ≠ ""
  assetId : data.asset.id ≠ ""
  endpoints : data.endpoints ≠ []
  addresses : (data.endpoints.map (·.address)).Nodup

section

variable {page : Page}

theorem validated_checkCreateButton
    (h : page.addressError = false → (page.data.endpoints.map (·.address)).Nodup) :
    Validated (checkCreateButton page) where
  addresses := h
  createEnabled henabled := by
    simp only [checkCreateButton, Bool.not_eq_true', Bool.or_eq_false_iff] at henabled
    exact henabled.2

theorem validated_setAddressValueState (page : Page) : Validated (setAddressValueState page) :=
  validated_checkCreateButton epAddressDuplicate_eq_false

theorem Validated.onLiveChange
    (h : page.addressError = false → (page.data.endpoints.map (·.address)).Nodup)
    (newValue : String) (input : Input) :
    Validated (CreateDescriptor.onLiveChange newValue page input) := by
  cases input with
  | inputAasId => exact validated_checkCreateButton h
  | inputAssetId => exact validated_checkCreateButton h
  | endpointAddress =>
      exact validated_checkCreateButton (validated_setAddressValueState _).addresses

theorem map_address_modify (endpoints : List Endpoint) (i : ℕ) {f : Endpoint → Endpoint}
    (hf : ∀ e, (f e).address = e.address) :
    (endpoints.modify i f).map (·.address) = endpoints.map (·.address) := by
  induction endpoints generalizing i with
  | nil => simp
  | cons e endpoints ih =>
      cases i with
      | zero => simp [hf]
      | succ i => simp [ih]

theorem Validated.onEdit (h : Validated page) (property : Property) (value : String) :
    Validated (CreateDescriptor.onEdit property value page) := by
  unfold CreateDescriptor.onEdit
  split
  · exact validated_checkCreateButton (validated_setAddressValueState _).addresses
  · rename_i hproperty
    have hkeeps : ∀ e, (setProperty value e property).address = e.address := by
      intro e
      cases property with
      | address => exact absurd rfl hproperty
      | _ => rfl
    refine ⟨fun herror => ?_, h.createEnabled⟩
    rw [map_address_modify _ _ hkeeps]
    exact h.addresses herror

theorem validated_resetScreenToInitial (page : Page) :
    Validated (resetScreenToInitial page).1 :=
  validated_checkCreateButton fun _ => List.nodup_nil

theorem mem_resetScreenToInitial {request : Request}
    (h : request ∈ (resetScreenToInitial page).2) (data : Descriptor) :
    request ≠ .putAASDescriptor data := by
  rw [List.mem_singleton.mp h]
  exact fun hno => nomatch hno

/-- What is created has passed all checks. -/
theorem submittable_of_put {url : String} {data : Descriptor} (h : Validated page)
    (henabled : page.createEnabled = true)
    (hput : onCreateDescriptor page.data.identification.id page.data.asset.id page.data =
      .put url data) : Submittable data := by
  obtain rfl := eq_of_onCreateDescriptor hput
  unfold onCreateDescriptor at hput
  split at hput
  · cases hput
  · rename_i haasId
    split at hput
    · cases hput
    · rename_i hassetId
      split at hput
      · cases hput
      · rename_i hlength
        refine ⟨haasId, hassetId, ?_, h.addresses (h.createEnabled henabled)⟩
        exact List.length_pos_iff.mp (Decidable.not_not.mp hlength)

/-- Whatever is pressed and typed. -/
theorem Validated.event (h : Validated page) {e : Event} {next : Page × List Request}
    (hnext : CreateDescriptor.event page e = some next) :
    Validated next.1 ∧ ∀ data, .putAASDescriptor data ∈ next.2 → Submittable data := by
  have hnone : ∀ data, Request.putAASDescriptor data ∈ ([] : List Request) → Submittable data :=
    fun _ hmem => nomatch hmem
  cases e with
  | aasId value =>
      obtain rfl := Option.some.inj hnext
      refine ⟨.onLiveChange ?_ value .inputAasId, hnone⟩
      exact h.addresses
  | aasIdType key =>
      obtain rfl := Option.some.inj hnext
      exact ⟨⟨h.addresses, h.createEnabled⟩, hnone⟩
  | assetId value =>
      obtain rfl := Option.some.inj hnext
      refine ⟨.onLiveChange ?_ value .inputAssetId, hnone⟩
      exact h.addresses
  | assetIdType key =>
      obtain rfl := Option.some.inj hnext
      exact ⟨⟨h.addresses, h.createEnabled⟩, hnone⟩
  | signature value =>
      obtain rfl := Option.some.inj hnext
      exact ⟨⟨h.addresses, h.createEnabled⟩, hnone⟩
  | addNewEndpoint =>
      obtain rfl := Option.some.inj hnext
      exact ⟨validated_setAddressValueState _, hnone⟩
  | deleteEndpoint i =>
      obtain ⟨-, heq⟩ := Option.ite_none_right_eq_some.mp hnext
      obtain rfl := Option.some.inj heq
      exact ⟨validated_setAddressValueState _, hnone⟩
  | endpointPressed i =>
      obtain ⟨-, heq⟩ := Option.ite_none_right_eq_some.mp hnext
      obtain rfl := Option.some.inj heq
      exact ⟨⟨h.addresses, h.createEnabled⟩, hnone⟩
  | edit property value =>
      obtain rfl := Option.some.inj hnext
      exact ⟨h.onEdit property value, hnone⟩
  | create =>
      obtain ⟨henabled, heq⟩ := Option.ite_none_right_eq_some.mp hnext
      obtain rfl := Option.some.inj heq
      unfold onCreatePress
      split
      · rename_i hput
        refine ⟨h, fun data hdata => ?_⟩
        obtain rfl := Request.putAASDescriptor.inj (List.mem_singleton.mp hdata)
        exact submittable_of_put h henabled hput
      · split
        · exact ⟨⟨h.addresses, h.createEnabled⟩, hnone⟩
        · exact ⟨⟨h.addresses, h.createEnabled⟩, hnone⟩
      · exact ⟨h, hnone⟩
      · exact ⟨h, hnone⟩
  | cancel =>
      obtain rfl := Option.some.inj hnext
      exact ⟨validated_resetScreenToInitial page,
        fun data hdata => absurd rfl (mem_resetScreenToInitial hdata data)⟩

theorem Validated.receive (h : Validated page) (answer : Answer) :
    Validated (CreateDescriptor.receive page answer).1 ∧
      ∀ data, .putAASDescriptor data ∈ (CreateDescriptor.receive page answer).2 →
        Submittable data := by
  cases answer with
  | aasDescriptors model loaded =>
      simp only [CreateDescriptor.receive]
      split
      · exact ⟨⟨h.addresses, h.createEnabled⟩, fun _ hmem => nomatch hmem⟩
      · exact ⟨h, fun _ hmem => nomatch hmem⟩
  | notLoaded => exact ⟨h, fun _ hmem => nomatch hmem⟩
  | created ok =>
      cases ok with
      | true => exact ⟨validated_resetScreenToInitial page,
          fun data hdata => absurd rfl (mem_resetScreenToInitial hdata data)⟩
      | false => exact ⟨h, fun _ hmem => nomatch hmem⟩

end

/-- The registry and its answers may be as they like. -/
def validation : ClientServer.Invariant Db Page Request Answer where
  server _ := True
  client _ page := Validated page
  request _ request := ∀ data, request = .putAASDescriptor data → Submittable data
  answer _ _ := True

theorem keeps_validation (aes : Aes) :
    (session aes).Keeps validation (fun _ => True) fun _ _ => True where
  call _ _ _ _ := ⟨trivial, fun _ h => h, fun _ h => h, fun _ h => h⟩
  handle _ _ _ _ _ := ⟨⟨trivial, fun _ h => h, fun _ h => h, fun _ h => h⟩, trivial⟩
  event _ page e next h _ hnext := by
    obtain ⟨hpage, hsent⟩ := Validated.event h hnext
    exact ⟨hpage, fun request hrequest data heq => hsent data (heq ▸ hrequest)⟩
  receive _ page answer h _ := by
    obtain ⟨hpage, hsent⟩ := Validated.receive h answer
    exact ⟨hpage, fun request hrequest data heq => hsent data (heq ▸ hrequest)⟩

theorem validation_onInit (db : Db) : validation.Holds (onInit db) where
  server := trivial
  client := ⟨fun _ => List.nodup_nil, fun _ => rfl⟩
  requests request hrequest data heq := by
    rw [List.mem_singleton.mp hrequest] at heq
    cases heq
  answers _ _ := trivial

theorem submittable_of_exec {aes : Aes} {db : Db}
    {ls : List (ClientServer.Label Call CallEnv Event)}
    {s : ClientServer.State Db Page Request Answer}
    (hexec : exec (session aes).step (onInit db) ls = some s) {data : Descriptor}
    (hdata : .putAASDescriptor data ∈ s.requests) : Submittable data :=
  ((validation_onInit db).exec (keeps_validation aes) (fun _ _ => trivial)
    (guarded_of_forall (fun _ l => by cases l <;> trivial) _ _) hexec).requests _ hdata data rfl

/-! ### What the registry makes of it -/

section

variable {aes : Aes} {env : CallEnv} {db : Db} {data : Descriptor}

theorem Submittable.valid (h : Submittable data) :
    validateAASDescriptorRequest (body data).request = true := by
  simp [validateAASDescriptorRequest, body, IAASDescriptor.request, IIdentifier.request,
    Field.truthy, h.aasId, h.assetId]

theorem Submittable.put_eq (h : Submittable data) :
    put aes env db data = createAASDescriptor aes env db (body data) :=
  if_pos h.valid

/-- The address alone tells the endpoints apart. -/
theorem Submittable.keys (h : Submittable data) :
    ((body data).endpoints.map IEndpoint.key).Nodup := by
  have haddresses : ((body data).endpoints.map IEndpoint.key).map Prod.fst =
      data.endpoints.map (·.address) := by
    simp [body, IEndpoint.key, record]
  refine List.Nodup.of_map Prod.fst ?_
  rw [haddresses]
  exact h.addresses

/-- Whatever the row held before, all that the form has is read again. -/
theorem read_record (e : Endpoint) (random : Random) (old : Option EndpointEntity) :
    ((((record e).encryptCredentials aes random).row old).response aes
      (record e).key).withoutSalt = (record e).submitted := by
  obtain ⟨user, password, huser, hpassword, heq⟩ := (record e).encryptCredentials_spec aes random
  have huserRead := huser.reads (old.bind (·.salt)) (old.bind (·.user))
  have hpasswordRead := hpassword.reads (old.bind (·.salt)) (old.bind (·.password))
  have hgiven : ∀ value : String, Lib.Field.string value ≠ .undefined := by simp
  rw [if_neg (show (record e).user ≠ .undefined from hgiven e.user)] at huserRead
  rw [if_neg (show (record e).password ≠ .undefined from hgiven e.password)] at hpasswordRead
  simp only [heq, IEndpoint.row, EndpointEntity.response, EndpointResponse.withoutSalt, huserRead,
    hpasswordRead]
  rfl

theorem Submittable.endpoints_read (h : Submittable data) :
    (Multiset.filterMap (readListed aes env db (body data))
        (((body data).endpoints.map IEndpoint.key).dedup : Multiset EndpointKey)).map
          EndpointResponse.withoutSalt =
      ((body data).endpoints.map IEndpoint.submitted : Multiset EndpointResponse) := by
  rw [map_eq_filterMap_firstListed h.keys, Multiset.map_filterMap]
  congr 1
  funext key
  cases hfirst : firstListed (body data).endpoints key with
  | none => simp [readListed, hfirst]
  | some p =>
      obtain ⟨e, i⟩ := p
      have hmem : e ∈ (body data).endpoints :=
        List.fst_mem_of_mem_zipIdx (List.mem_of_find?_eq_some hfirst)
      obtain ⟨row, -, rfl⟩ := List.mem_map.mp hmem
      obtain rfl := key_of_firstListed hfirst
      rw [readListed, hfirst]
      exact congrArg some (read_record row _ _)

/-- A descriptor is created if nothing of it is there yet. -/
theorem Submittable.put_isOk_iff (h : Submittable data)
    (hanswers : env.answers 0 = true ∧ env.answers 1 = true) :
    (put aes env db data).1.isOk = true ↔
      data.identification.id ∉ db.aasDescriptors.keys ∧
        db.assetTaken data.identification.id data.asset.id = false := by
  have hsucceeds : (createAASDescriptor aes env db (body data)).1.isOk =
      takesEffect db (.createAASDescriptor env (body data)) :=
    @Call.succeeds_eq_takesEffect aes db (.createAASDescriptor env (body data)) _ _ rfl
  have hlookup : (db.aasDescriptors.lookup data.identification.id).isNone = true ↔
      data.identification.id ∉ db.aasDescriptors.keys := by
    rw [Option.isNone_iff_eq_none, AList.lookup_eq_none, AList.mem_keys]
  have hjoins : db.joinsTwice data.identification.id ((body data).endpoints.map IEndpoint.key) =
      false := Db.joinsTwice_of_nodup h.keys _ _
  have hrefuses : db.refusesRecord (body data) =
      db.assetTaken data.identification.id data.asset.id := by
    rw [Db.refusesRecord, Db.refuses]
    exact (congrArg _ hjoins).trans (Bool.or_false _)
  rw [h.put_eq, hsucceeds, ← hlookup]
  simp only [takesEffect, hanswers.1, hanswers.2, hrefuses, Bool.true_and, Bool.and_eq_true,
    Bool.not_eq_true']
  exact Iff.rfl

theorem Submittable.read (h : Submittable data)
    (hok : (put aes env db data).1.isOk = true) :
    (readAASDescriptorByAasId aes (put aes env db data).2 data.identification.id).map
      AASDescriptorResponse.withoutSalt = .ok (submitted data) := by
  rw [h.put_eq] at hok ⊢
  have heffect : takesEffect db (.createAASDescriptor env (body data)) = true :=
    (@Call.succeeds_eq_takesEffect aes db (.createAASDescriptor env (body data)) _ _ rfl).symm.trans
      hok
  have hread := @read_of_takesEffect aes db _ env (body data) rfl heffect
  have hendpoints := @Submittable.endpoints_read aes env db data h
  refine (congrArg (Except.map AASDescriptorResponse.withoutSalt) hread).trans ?_
  refine congrArg Except.ok ?_
  simp only [AASDescriptorResponse.withoutSalt, hendpoints]
  rfl

end

/-- Whatever is typed and pressed, in whatever order the requests and the answers arrive, and
whatever else is called in the registry meanwhile: what the page sends is created exactly if
there is no descriptor with its id and none of another id with its asset, and is read then as
it was in the form. -/
theorem created_as_submitted (aes : Aes) (db : Db)
    (ls : List (ClientServer.Label Call CallEnv Event))
    (s : ClientServer.State Db Page Request Answer)
    (hreached : exec (session aes).step (onInit db) ls = some s) (data : Descriptor)
    (hsent : .putAASDescriptor data ∈ s.requests) (env : CallEnv)
    (hanswers : env.answers 0 = true ∧ env.answers 1 = true) :
    ((put aes env s.server data).1.isOk = true ↔
      data.identification.id ∉ s.server.aasDescriptors.keys ∧
        s.server.assetTaken data.identification.id data.asset.id = false) ∧
    ((put aes env s.server data).1.isOk = true →
      (readAASDescriptorByAasId aes (put aes env s.server data).2 data.identification.id).map
        AASDescriptorResponse.withoutSalt = .ok (submitted data)) :=
  have hsubmittable : Submittable data := submittable_of_exec hreached hsent
  ⟨hsubmittable.put_isOk_iff hanswers, hsubmittable.read⟩

/-- An endpoint is added, edited, and added once more under another address. -/
def twoEndpoints : List Event :=
  [.aasId "aas", .assetId "asset", .addNewEndpoint, .edit .address "https://aas.example",
    .edit .password "secret", .addNewEndpoint, .create]

theorem created_as_submitted_twoEndpoints :
    ∃ s data, exec (session sampleAes).step (onInit Db.empty) (twoEndpoints.map .event) = some s ∧
      .putAASDescriptor data ∈ s.requests ∧
      (put sampleAes (sampleEnv firstSalt) s.server data).1.isOk = true ∧
      (readAASDescriptorByAasId sampleAes (put sampleAes (sampleEnv firstSalt) s.server data).2
        data.identification.id).map AASDescriptorResponse.withoutSalt = .ok (submitted data) := by
  obtain ⟨hiff, hread⟩ := created_as_submitted sampleAes Db.empty (twoEndpoints.map .event) _ rfl
    _ (.tail _ (.head [])) (sampleEnv firstSalt) ⟨rfl, rfl⟩
  have hok := hiff.mpr ⟨by decide, by decide⟩
  exact ⟨_, _, rfl, .tail _ (.head []), hok, hread hok⟩

end I40Aas.RegistryUi.CreateDescriptor
