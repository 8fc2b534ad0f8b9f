import I40Aas.EndpointRegistry.Registry
import I40Aas.EndpointResolver.Delivery
import I40Aas.EndpointResolver.RegistryPaths
import I40Aas.Lib.Json.Transport

/-!
The registry as the resolver sees it: the two handlers that look up a receiver, their answers
as texts, and the endpoints that the resolver reads in them. A column that is not set is null
in an answer, and the resolver prints it as the text `<nil>`.
-/

namespace I40Aas.Routing

open I40Aas.Lib I40Aas.Lib.Json I40Aas.Interaction I40Aas.EndpointRegistry
open I40Aas.EndpointRegistry.Router I40Aas.EndpointResolver

variable {F : Type}

/-- The order in which the database returns rows: the endpoints of a descriptor, and several
descriptors. No query of the registry asks for one. -/
structure RowOrder where
  endpoints : AASDescriptorResponse → List EndpointResponse
  coe_endpoints : ∀ d, (endpoints d : Multiset EndpointResponse) = d.endpoints
  descriptors : List AASDescriptorResponse → List AASDescriptorResponse
  perm_descriptors : ∀ ds, (descriptors ds).Perm ds

variable (order : RowOrder)

/-! ### The answers -/

/-- A column of a row that was loaded. -/
def column : Option String → Json F
  | some value => .str value
  | none => .null

def identifierJson (identifier : IIdentifier) : Json F :=
  .obj [("id", .str identifier.id), ("idType", .str identifier.idType)]

/-- The salt is deleted, unless it is the empty string. -/
def endpointMembers (endpoint : EndpointResponse) : List (String × Json F) :=
  [("address", .str endpoint.address), ("type", .str endpoint.type),
    ("target", column endpoint.target), ("user", column endpoint.user),
    ("password", column endpoint.password)] ++
  endpoint.salt.toList.map (fun salt => ("salt", .str salt)) ++
  [("tls_certificate", column endpoint.tlsCertificate),
    ("certificate_x509_i40", column endpoint.certificateX509I40)]

def descriptorMembers (d : AASDescriptorResponse) : List (String × Json F) :=
  ("endpoints", .arr ((order.endpoints d).map fun endpoint => .obj (endpointMembers endpoint))) ::
    d.signature.toList.map fun signature => ("signature", .str signature)

def responseMembers (d : AASDescriptorResponse) : List (String × Json F) :=
  [("asset", identifierJson d.asset), ("descriptor", .obj (descriptorMembers order d)),
    ("identification", identifierJson d.identification)]

def responseJson (d : AASDescriptorResponse) : Json F :=
  .obj (responseMembers order d)

def responsesJson (ds : List AASDescriptorResponse) : Json F :=
  .arr ((order.descriptors ds).map (responseJson order))

/-- The status that the error handlers send. -/
def status : RegistryError → ℕ
  | .http404Error _ => 404
  | .http422Error _ => 422
  | .queryFailedError | .typeError => 500

/-- The body of an answer, which counts below status 300. -/
def body [FloatFormat F] {α : Type} (json : α → Json F) :
    Except RegistryError α → Except Error (List UInt8)
  | .ok value => .ok (stringify (json value))
  | .error e => .error (.errorf ("errored with status code " ++ toString (status e) ++
      " while querying endpoint-registry"))

/-- The registry answers a route; `other` are the answers of the handlers that look up no
receiver. -/
def queryEndpointRegistry (F : Type) [FloatFormat F] (aes : Aes) (db : Db)
    (other : String → Except Error (List UInt8)) (route : String) : Except Error (List UInt8) :=
  match dispatch .get route routes with
  | some (.readAASDescriptorByAASId, [(_, aasId)]) =>
      body (F := F) (responseJson order) (readAASDescriptorByAasId aes db aasId)
  | some (.readAASBySemanticProtocolAndRole, [(_, semanticProtocol), (_, roleName)]) =>
      body (F := F) (responsesJson order)
        (readAASDescriptorsBySemanticProtocolAndRole aes db semanticProtocol roleName)
  | _ => other route

/-- The receiver with its texts as the registry reads them. -/
def asRead : NamedReceiver → NamedReceiver
  | .byId id => .byId (String.ofList (id.toList.map readBack))
  | .byRole semanticProtocol roleName =>
      .byRole (String.ofList (semanticProtocol.toList.map readBack))
        (String.ofList (roleName.toList.map readBack))

/-- What is read for a receiver. -/
def readReceiver (aes : Aes) (db : Db) :
    NamedReceiver → Except RegistryError (List AASDescriptorResponse)
  | .byId id => (readAASDescriptorByAasId aes db id).map fun d => [d]
  | .byRole semanticProtocol roleName =>
      readAASDescriptorsBySemanticProtocolAndRole aes db semanticProtocol roleName

/-- What the resolver has of an endpoint. -/
def readEndpoint (endpoint : EndpointResponse) : List (String × Json F) :=
  ofMembers (asMapsMembers (endpointMembers endpoint))

/-- What it has of a descriptor. -/
def readDescriptor (d : AASDescriptorResponse) : List (String × Json F) :=
  ofMembers (asMapsMembers (responseMembers order d))

variable {order}

/-! ### Reading the answers -/

theorem keys_endpointMembers (endpoint : EndpointResponse) :
    ((endpointMembers endpoint : List (String × Json F)).map Prod.fst).Nodup := by
  simp only [endpointMembers]
  cases endpoint.salt with
  | none =>
      show ["address", "type", "target", "user", "password", "tls_certificate",
        "certificate_x509_i40"].Nodup
      decide
  | some salt =>
      show ["address", "type", "target", "user", "password", "salt", "tls_certificate",
        "certificate_x509_i40"].Nodup
      decide

theorem keys_descriptorMembers (d : AASDescriptorResponse) :
    ((descriptorMembers order d : List (String × Json F)).map Prod.fst).Nodup := by
  simp only [descriptorMembers]
  cases d.signature with
  | none =>
      show ["endpoints"].Nodup
      decide
  | some signature =>
      show ["endpoints", "signature"].Nodup
      decide

theorem keys_responseMembers (d : AASDescriptorResponse) :
    ((responseMembers order d : List (String × Json F)).map Prod.fst).Nodup := by
  show ["asset", "descriptor", "identification"].Nodup
  decide

@[simp] theorem asMaps_column (value : Option String) :
    (column value : Json F).asMaps = column value := by
  cases value with
  | none => rfl
  | some value => rfl

theorem sprint_column (sprintNumber : F → String) (value : Option String) :
    sprint sprintNumber (column value) = value.getD "<nil>" := by
  cases value with
  | none => rfl
  | some value => rfl

theorem depth_column (value : Option String) : (column value : Json F).depth = 0 := by
  cases value with
  | none => rfl
  | some value => rfl

theorem depth_endpointMembers (endpoint : EndpointResponse) :
    depthMembers (endpointMembers endpoint : List (String × Json F)) = 0 := by
  cases hsalt : endpoint.salt <;>
    simp [endpointMembers, hsalt, depthMembers, depth, depth_column]

variable (order) in
theorem depth_descriptorMembers (d : AASDescriptorResponse) :
    depthMembers (descriptorMembers order d : List (String × Json F)) ≤ 2 := by
  have hendpoints : depthElements ((order.endpoints d).map fun endpoint =>
      (.obj (endpointMembers endpoint) : Json F)) ≤ 1 := by
    apply depthElements_le
    intro e he
    obtain ⟨endpoint, -, rfl⟩ := List.mem_map.mp he
    rw [depth, depth_endpointMembers]
  cases hsignature : d.signature with
  | none =>
      simp only [descriptorMembers, hsignature, depthMembers, depth, Option.toList, List.map_nil]
      omega
  | some signature =>
      simp only [descriptorMembers, hsignature, depthMembers, depth, Option.toList, List.map_cons,
        List.map_nil]
      omega

/-- An answer is far from the nesting that encoding/json refuses. -/
theorem depth_responseJson (d : AASDescriptorResponse) :
    (responseJson order d : Json F).depth ≤ 4 := by
  have hdescriptor := depth_descriptorMembers (F := F) order d
  simp only [responseJson, responseMembers, identifierJson, depth, depthMembers]
  omega

theorem index_readEndpoint (endpoint : EndpointResponse) (k : String) :
    index (readEndpoint endpoint : List (String × Json F)) k =
      (index (endpointMembers endpoint) k).asMaps :=
  index_asMaps (keys_endpointMembers endpoint) k

/-- The texts of an endpoint. -/
structure ReadsEndpoint (endpoint : EndpointResponse) (ms : List (String × Json F)) : Prop where
  address : index ms "address" = .str endpoint.address
  type : index ms "type" = .str endpoint.type
  target : index ms "target" = column endpoint.target
  user : index ms "user" = column endpoint.user
  password : index ms "password" = column endpoint.password
  tlsCertificate : index ms "tls_certificate" = column endpoint.tlsCertificate

theorem readsEndpoint (endpoint : EndpointResponse) :
    ReadsEndpoint endpoint (readEndpoint endpoint : List (String × Json F)) where
  address := by
    rw [index_readEndpoint]
    rfl
  type := by
    rw [index_readEndpoint]
    rfl
  target := by
    rw [index_readEndpoint, ← asMaps_column]
    rfl
  user := by
    rw [index_readEndpoint, ← asMaps_column]
    rfl
  password := by
    rw [index_readEndpoint, ← asMaps_column]
    rfl
  tlsCertificate := by
    rw [index_readEndpoint, ← asMaps_column]
    cases hsalt : endpoint.salt with
    | none =>
        rw [endpointMembers, hsalt]
        rfl
    | some salt =>
        rw [endpointMembers, hsalt]
        rfl

theorem index_readDescriptor (d : AASDescriptorResponse) (k : String) :
    index (readDescriptor order d : List (String × Json F)) k =
      (index (responseMembers order d) k).asMaps :=
  index_asMaps (keys_responseMembers d) k

theorem index_readDescriptor_descriptor (d : AASDescriptorResponse) :
    index (readDescriptor order d : List (String × Json F)) "descriptor" =
      .obj (ofMembers (asMapsMembers (descriptorMembers order d))) := by
  rw [index_readDescriptor]
  rfl

theorem index_endpoints (d : AASDescriptorResponse) :
    index (ofMembers (asMapsMembers (descriptorMembers order d)) : List (String × Json F))
      "endpoints" =
        .arr ((order.endpoints d).map fun endpoint => .obj (readEndpoint endpoint)) := by
  rw [index_asMaps (keys_descriptorMembers d)]
  show Json.asMaps (.arr ((order.endpoints d).map fun endpoint =>
    .obj (endpointMembers endpoint))) = _
  rw [asMaps, asMapsElements_eq, List.map_map]
  rfl

/-- The identification of the descriptor is there, with id and type. -/
theorem index_identification (d : AASDescriptorResponse) : ∃ ms : List (String × Json F),
    index (readDescriptor order d) "identification" = .obj ms ∧
      index ms "id" = .str d.identification.id ∧
      index ms "idType" = .str d.identification.idType := by
  have hkeys : (([("id", .str d.identification.id), ("idType", .str d.identification.idType)] :
      List (String × Json F)).map Prod.fst).Nodup := by
    show ["id", "idType"].Nodup
    decide
  refine ⟨ofMembers (asMapsMembers [("id", .str d.identification.id),
    ("idType", .str d.identification.idType)]), ?_, ?_, ?_⟩
  · rw [index_readDescriptor]
    rfl
  · rw [index_asMaps hkeys]
    rfl
  · rw [index_asMaps hkeys]
    rfl

theorem wellShaped_readDescriptor (d : AASDescriptorResponse) :
    WellShaped (.obj (readDescriptor order d) : Json F) := by
  obtain ⟨ms, hid, -, -⟩ := index_identification (F := F) d
  refine ⟨by rw [hid]; rfl, ?_⟩
  rw [index_readDescriptor_descriptor, isDescriptor, index_endpoints, isEndpoints, List.all_map,
    List.all_eq_true]
  intro endpoint _
  rfl

theorem wellShaped_of_mem {ds : List AASDescriptorResponse} :
    ∀ d ∈ ds.map fun d => (.obj (readDescriptor order d) : Json F), WellShaped d := by
  intro d hd
  obtain ⟨d, -, rfl⟩ := List.mem_map.mp hd
  exact wellShaped_readDescriptor d

/-- The endpoints of the descriptor are the ones to send to. -/
theorem targetsOf_readDescriptor (d : AASDescriptorResponse) :
    targetsOf (.obj (readDescriptor order d) : Json F) =
      (order.endpoints d).map fun endpoint => ⟨readDescriptor order d, readEndpoint endpoint⟩ := by
  rw [targetsOf, endpointsOf, index_readDescriptor_descriptor]
  simp only [index_endpoints, List.filterMap_map]
  have hobjects : (objectOf ∘ fun endpoint => (.obj (readEndpoint endpoint) : Json F)) =
      some ∘ readEndpoint := rfl
  rw [hobjects, List.filterMap_eq_map, List.map_map]
  rfl

theorem targets_readDescriptor (ds : List AASDescriptorResponse) :
    targets (ds.map fun d => (.obj (readDescriptor order d) : Json F)) =
      ds.flatMap fun d => (order.endpoints d).map fun endpoint =>
        ⟨readDescriptor order d, readEndpoint endpoint⟩ := by
  rw [targets, List.flatMap_map]
  exact List.flatMap_congr fun d _ => targetsOf_readDescriptor d

/-! ### Asking the registry -/

section

variable [FloatFormat F]

theorem stringify_responseJson_ne (d : AASDescriptorResponse) :
    stringify (responseJson order d : Json F) ≠ goString "\x7b\x7d" := by
  have hempty : goString "\x7b\x7d" = stringify (.obj [] : Json F) := rfl
  rw [hempty, Ne, stringify_eq_iff]
  intro h
  cases h

theorem stringify_responses_eq_iff (ds : List AASDescriptorResponse) :
    stringify (responsesJson order ds : Json F) = goString "[]" ↔ ds = [] := by
  have hempty : goString "[]" = stringify (.arr [] : Json F) := rfl
  have hperm := order.perm_descriptors ds
  rw [hempty, stringify_eq_iff, responsesJson]
  cases hds : order.descriptors ds with
  | nil =>
      rw [hds] at hperm
      obtain rfl := hperm.nil_eq
      exact iff_of_true rfl rfl
  | cons d rest =>
      rw [hds] at hperm
      have hne : ds ≠ [] := by
        rintro rfl
        cases hperm.eq_nil
      simp only [List.map_cons, encode, encodeElements, hne, iff_false]
      intro h
      cases h

variable (order) in
/-- A list of descriptors as the resolver reads it. -/
theorem unmarshalSlice_responses (ds : List AASDescriptorResponse) :
    unmarshalSlice (stringify (responsesJson order ds : Json F)) =
      .ok ((order.descriptors ds).map fun d => (.obj (readDescriptor order d) : Json F)) := by
  have helements : depthElements ((order.descriptors ds).map (responseJson order) :
      List (Json F)) ≤ 4 := by
    apply depthElements_le
    intro e he
    obtain ⟨d, -, rfl⟩ := List.mem_map.mp he
    exact depth_responseJson d
  have hdepth : (responsesJson order ds : Json F).depth ≤ maxNestingDepth := by
    have hmax : maxNestingDepth = 10000 := rfl
    rw [responsesJson, depth, hmax]
    omega
  rw [unmarshalSlice, unmarshal_stringify_asMaps hdepth, responsesJson, asMaps, asMapsElements_eq,
    List.map_map]
  rfl

theorem RowOrder.descriptors_singleton (d : AASDescriptorResponse) : order.descriptors [d] = [d] :=
  List.perm_singleton.mp (order.perm_descriptors [d])

theorem descriptors_body_byId (id : String) (result : Except RegistryError AASDescriptorResponse) :
    ((body (F := F) (responseJson order) result).bind
        (NamedReceiver.byId id).descriptors).toOption =
      (result.toOption.map fun d => [(.obj (readDescriptor order d) : Json F)]) := by
  cases result with
  | error e => rfl
  | ok d =>
      show (NamedReceiver.descriptors (F := F) (.byId id)
        (stringify (responseJson order d))).toOption = _
      have hslice := unmarshalSlice_responses (F := F) order [d]
      rw [responsesJson, RowOrder.descriptors_singleton, List.map_singleton, List.map_singleton,
        ← stringify_singleton] at hslice
      rw [NamedReceiver.descriptors, if_neg (stringify_responseJson_ne d)]
      exact congrArg Except.toOption hslice

theorem descriptors_body_byRole (semanticProtocol roleName : String)
    (result : Except RegistryError (List AASDescriptorResponse)) :
    ((body (F := F) (responsesJson order) result).bind
        (NamedReceiver.byRole semanticProtocol roleName).descriptors).toOption =
      result.toOption.map fun ds =>
        (order.descriptors ds).map fun d => (.obj (readDescriptor order d) : Json F) := by
  cases result with
  | error e => rfl
  | ok ds =>
      show (NamedReceiver.descriptors (F := F) (.byRole semanticProtocol roleName)
        (stringify (responsesJson order ds))).toOption = _
      rw [NamedReceiver.descriptors]
      split
      · rename_i hempty
        have hnone : order.descriptors [] = [] := (order.perm_descriptors []).eq_nil
        rw [(stringify_responses_eq_iff ds).mp hempty, Except.toOption, Except.toOption,
          Option.map_some, hnone]
        rfl
      · exact congrArg Except.toOption (unmarshalSlice_responses order ds)

variable {env : Env F} {aes : Aes} {db : Db} {other : String → Except Error (List UInt8)}

/-- The resolver gets what the registry reads for the receiver, its spaces read as pluses. -/
theorem getAASDescriptors_of_registry {frame : Frame} {receiver : NamedReceiver}
    (hregistry : env.queryEndpointRegistry = queryEndpointRegistry order F aes db other)
    (hnamed : namedReceiver frame = some receiver) :
    (getAASDescriptorsFromEndpointRegistry env frame).toOption =
      (readReceiver aes db (asRead receiver)).toOption.map fun ds =>
        (order.descriptors ds).map fun d => (.obj (readDescriptor order d) : Json F) := by
  have hdispatch := dispatch_route (texts_ne_empty hnamed)
  rw [getAASDescriptorsFromEndpointRegistry_eq, hnamed, hregistry]
  simp only [queryEndpointRegistry, hdispatch]
  cases receiver with
  | byId id =>
      show ((body (F := F) (responseJson order) _).bind
        (NamedReceiver.byId id).descriptors).toOption = _
      rw [descriptors_body_byId, asRead, readReceiver]
      generalize readAASDescriptorByAasId aes db _ = result
      cases result with
      | error e => rfl
      | ok d =>
          show some _ = some ((order.descriptors [d]).map fun d =>
            Json.obj (readDescriptor order d))
          rw [RowOrder.descriptors_singleton]
          rfl
  | byRole semanticProtocol roleName =>
      show ((body (F := F) (responsesJson order) _).bind
        (NamedReceiver.byRole semanticProtocol roleName).descriptors).toOption = _
      rw [descriptors_body_byRole]
      rfl

end

end I40Aas.Routing
