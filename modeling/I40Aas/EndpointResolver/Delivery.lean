import Mathlib.Data.List.Forall2
import I40Aas.EndpointResolver.Places
import I40Aas.EndpointResolver.ReceiverRewriting
import I40Aas.Interaction.Jsonpb

/-!
One delivery of the endpoint resolver. For answers of the registry that have the
expected shape the two loops are one pass over the endpoints of all descriptors
(`resolveDescriptors_eq`), which ends at the first endpoint that fails. So a
delivery is always settled, and when it is acknowledged every endpoint has got its
message (`acked_complete`), but an endpoint of an unknown type takes the message
away from those behind it (`reachesAll_iff`).
-/

namespace I40Aas.EndpointResolver

open I40Aas.Lib I40Aas.Lib.Json I40Aas.Interaction

variable {F : Type}

/-! The shape of an answer. -/

/-- The member `endpoints`. -/
def isEndpoints : Json F → Bool
  | .null => true
  | .arr endpoints => endpoints.all isObject
  | _ => false

/-- The member `descriptor`. -/
def isDescriptor : Json F → Bool
  | .null => true
  | .obj descriptor => isEndpoints (index descriptor "endpoints")
  | _ => false

def WellShaped : Json F → Prop
  | .obj aasDescriptor =>
    isObject (index aasDescriptor "identification") ∧
      isDescriptor (index aasDescriptor "descriptor")
  | _ => False

/-! The endpoints of an answer. -/

def objectOf : Json F → Option (List (String × Json F))
  | .obj ms => some ms
  | _ => none

def endpointsOf (aasDescriptor : List (String × Json F)) : List (List (String × Json F)) :=
  match index aasDescriptor "descriptor" with
  | .obj descriptor =>
    match index descriptor "endpoints" with
    | .arr endpoints => endpoints.filterMap objectOf
    | _ => []
  | _ => []

def targetsOf : Json F → List (Target F)
  | .obj aasDescriptor => (endpointsOf aasDescriptor).map (Target.mk aasDescriptor)
  | _ => []

def targets (aasDescriptors : List (Json F)) : List (Target F) :=
  aasDescriptors.flatMap targetsOf

/-! One pass over them. -/

variable [FloatFormat F]

def resolveTargets (env : Env F) (msg : List UInt8) (frame : Frame) (n : ℕ) :
    List (Target F) → Outcome F
  | [] => ([], none)
  | t :: ts =>
    match resolveEndpoint env msg frame t.aasDescriptor t.endpoint with
    | .ok p =>
      if env.publish n p.routingKey p.resolverMsg.payload then
        let (published, failure) := resolveTargets env msg frame (n + 1) ts
        (p :: published, failure)
      else ([], some .publish)
    | .error failure => ([], some failure)

section

variable {env : Env F} {msg : List UInt8} {frame : Frame}

theorem resolveTargets_eq_resolvePlaces (n : ℕ) (ts : List (Target F)) :
    resolveTargets env msg frame n ts = resolvePlaces env msg frame n (ts.map some) := by
  induction ts generalizing n with
  | nil => rfl
  | cons t ts ih =>
      cases hp : resolveEndpoint env msg frame t.aasDescriptor t.endpoint with
      | ok p => simp only [resolveTargets, List.map_cons, resolvePlaces, hp, ih]
      | error failure => simp only [resolveTargets, List.map_cons, resolvePlaces, hp]

omit [FloatFormat F] in
theorem placeOf_objects {aasDescriptor : List (String × Json F)} {endpoints : List (Json F)}
    (h : endpoints.all isObject) : endpoints.map (placeOf true aasDescriptor) =
      ((endpoints.filterMap objectOf).map (Target.mk aasDescriptor)).map some := by
  induction endpoints with
  | nil => rfl
  | cons e endpoints ih =>
      rw [List.all_cons, Bool.and_eq_true] at h
      cases e with
      | obj endpoint =>
          rw [List.map_cons, ih h.2]
          rfl
      | _ => cases h.1

omit [FloatFormat F] in
/-- An answer of the expected shape has no place but its endpoints. -/
theorem placesOf_wellShaped {d : Json F} (h : WellShaped d) :
    placesOf true d = (targetsOf d).map some := by
  cases d with
  | obj aasDescriptor =>
      have hdescriptor := h.2
      simp only [placesOf, targetsOf, endpointsOf]
      cases hd : index aasDescriptor "descriptor" with
      | null => rfl
      | obj descriptor =>
          rw [hd, isDescriptor] at hdescriptor
          simp only
          cases he : index descriptor "endpoints" with
          | null => rfl
          | arr endpoints =>
              rw [he] at hdescriptor
              exact placeOf_objects hdescriptor
          | _ =>
              rw [he] at hdescriptor
              cases hdescriptor
      | _ =>
          rw [hd] at hdescriptor
          cases hdescriptor
  | _ => cases h

/-- The loops over the descriptors and their endpoints are one pass. -/
theorem resolveDescriptors_eq {ds : List (Json F)} (h : ∀ d ∈ ds, WellShaped d) (n : ℕ) :
    resolveDescriptors env msg frame n ds = resolveTargets env msg frame n (targets ds) := by
  have hplaces : places true ds = (targets ds).map some := by
    rw [places, targets, List.map_flatMap]
    exact List.flatMap_congr fun d hd => placesOf_wellShaped (h d hd)
  rw [resolveTargets_eq_resolvePlaces, ← hplaces]
  refine resolveDescriptors_eq_resolvePlaces true (fun aasDescriptor endpoint hplace => ?_) n ds
  cases hplace

theorem processGenericEgressMsg_eq {iMsg : InteractionMessage} {ds : List (Json F)}
    (hmsg : newInteractionMessage F env.jsonpb (.bytes msg) = .ok iMsg)
    (hframe : iMsg.frame = some frame)
    (hds : getAASDescriptorsFromEndpointRegistry env frame = .ok ds)
    (hshaped : ∀ d ∈ ds, WellShaped d) :
    processGenericEgressMsg env msg = resolveTargets env msg frame 0 (targets ds) := by
  simp only [processGenericEgressMsg, hmsg, hframe, hds]
  exact resolveDescriptors_eq hshaped 0

end

/-! One endpoint. -/

theorem routingKey_cases (rType : String) :
    (rType = "grpc" ∧ routingKey rType = .ok "egress.grpc") ∨
    ((rType = "http" ∨ rType = "https") ∧ routingKey rType = .ok "egress.http") ∨
    (rType ∉ ["grpc", "http", "https"] ∧
      routingKey rType = .error (.unsupportedType rType)) := by
  unfold routingKey
  split
  next hgrpc => exact .inl ⟨hgrpc, rfl⟩
  next hgrpc =>
    split
    next hhttp => exact .inr (.inl ⟨hhttp, rfl⟩)
    next hhttp =>
      refine .inr (.inr ⟨?_, rfl⟩)
      rw [not_or] at hhttp
      simp [hgrpc, hhttp]

section

variable {env : Env F} {msg : List UInt8} {iMsg : InteractionMessage} {frame : Frame}
  {receiver : ConversationMember}

/-- The payload is the message itself or a copy, which only jsonpb can refuse. -/
theorem egressPayload_cases
    (hmsg : newInteractionMessage F env.jsonpb (.bytes msg) = .ok iMsg)
    (hframe : iMsg.frame = some frame) (hreceiver : frame.receiver = some receiver)
    {aasDescriptor : List (String × Json F)}
    (hid : isObject (index aasDescriptor "identification")) :
    egressPayload env msg frame aasDescriptor = .ok msg ∨
      ∃ copy, egressPayload env msg frame aasDescriptor =
        match env.jsonpb.marshalToString (some copy) with
        | .ok frameJSON => .ok (concatMessage frameJSON iMsg.interactionElements)
        | .error e => .error (.err e) := by
  simp only [egressPayload, hreceiver]
  split
  next => exact .inl rfl
  next =>
    cases hidentification : index aasDescriptor "identification" with
    | obj identification =>
        exact .inr ⟨_, rewriteReceiver_eq hmsg hframe hreceiver hidentification⟩
    | _ =>
        rw [hidentification] at hid
        cases hid

theorem resolveEndpoint_ne_panic
    (hmsg : newInteractionMessage F env.jsonpb (.bytes msg) = .ok iMsg)
    (hframe : iMsg.frame = some frame) (hreceiver : frame.receiver = some receiver)
    {aasDescriptor : List (String × Json F)}
    (hid : isObject (index aasDescriptor "identification"))
    (endpoint : List (String × Json F)) :
    resolveEndpoint env msg frame aasDescriptor endpoint ≠ .error .panic := by
  have hpayload : egressPayload env msg frame aasDescriptor ≠ .error .panic := by
    rcases egressPayload_cases hmsg hframe hreceiver hid with h | ⟨copy, h⟩
    · simp [h]
    · rw [h]
      split <;> simp
  unfold resolveEndpoint
  cases hp : egressPayload env msg frame aasDescriptor with
  | error failure =>
      rw [hp] at hpayload
      simpa [bind, Except.bind] using hpayload
  | ok payload =>
      simp only [bind, Except.bind]
      rcases routingKey_cases (resolverMsg env endpoint payload).receiverType with
        ⟨-, h⟩ | ⟨-, h⟩ | ⟨-, h⟩
      all_goals simp [h, pure, Except.pure]

end

/-- The pass panics nowhere when no endpoint does. -/
theorem resolveTargets_ne_panic {env : Env F} {msg : List UInt8} {frame : Frame}
    {ts : List (Target F)}
    (h : ∀ t ∈ ts, resolveEndpoint env msg frame t.aasDescriptor t.endpoint ≠ .error .panic)
    (n : ℕ) : (resolveTargets env msg frame n ts).2 ≠ some .panic := by
  induction ts generalizing n with
  | nil => simp [resolveTargets]
  | cons t ts ih =>
      have ht := h t List.mem_cons_self
      rw [resolveTargets]
      split
      next =>
        split
        next => exact ih (fun t' ht' => h t' (List.mem_cons_of_mem t ht')) (n + 1)
        next => simp
      next failure hfailure =>
        rw [hfailure] at ht
        simpa using ht

/-- A pass without a failure has published for every endpoint, in their order. -/
theorem forall₂_resolveTargets {env : Env F} {msg : List UInt8} {frame : Frame}
    {ts : List (Target F)} {n : ℕ} (h : (resolveTargets env msg frame n ts).2 = none) :
    List.Forall₂
      (fun t p => resolveEndpoint env msg frame t.aasDescriptor t.endpoint = .ok p) ts
      (resolveTargets env msg frame n ts).1 := by
  induction ts generalizing n with
  | nil => exact .nil
  | cons t ts ih =>
      rw [resolveTargets] at h ⊢
      split at h
      next p hp =>
        split at h
        next hpublish =>
          simp only [hpublish, if_true]
          exact .cons hp (ih h)
        next => cases h
      next => cases h

/-! What each endpoint is to get. -/

def Target.text (t : Target F) (env : Env F) (key : String) : String :=
  sprint env.sprintNumber (index t.endpoint key)

/-- The id is the member of the descriptor as the resolver writes it, and the member
itself where nothing of it is escaped. -/
structure TakenFrom (v : Json F) (id : String) : Prop where
  text : id = withoutQuotes v
  exact : ∀ s, v = .str s → Plain s → id = s

/-- The message for one endpoint: nothing in it comes from another endpoint or from
another descriptor. -/
structure BuiltFor (env : Env F) (msg : List UInt8) (iMsg : InteractionMessage) (frame : Frame)
    (receiver : ConversationMember) (t : Target F) (p : Publication F) : Prop where
  target : p.target = t
  routingKey :
    (t.text env "type" = "grpc" ∧ p.routingKey = "egress.grpc") ∨
      ((t.text env "type" = "http" ∨ t.text env "type" = "https") ∧ p.routingKey = "egress.http")
  receiverURL : p.resolverMsg.receiverURL = t.text env "address"
  receiverType : p.resolverMsg.receiverType = t.text env "type"
  receiverTarget : p.resolverMsg.receiverTarget = t.text env "target"
  receiverUser : p.resolverMsg.receiverUser = some (t.text env "user")
  receiverPassword : p.resolverMsg.receiverPassword = some (t.text env "password")
  receiverTLSCert : p.resolverMsg.receiverTLSCert =
    some (if env.certificateParses (t.text env "tls_certificate") then
      t.text env "tls_certificate" else "")
  named : receiverId receiver ≠ none → p.resolverMsg.egressPayload = msg
  unnamed : receiverId receiver = none →
    ∃ identification id idType iMsg',
      index t.aasDescriptor "identification" = .obj identification ∧
      TakenFrom (index identification "id") id ∧
      TakenFrom (index identification "idType") idType ∧
      Names F env.jsonpb p.resolverMsg.egressPayload iMsg frame receiver id idType iMsg'

theorem takenFrom_withoutQuotes (v : Json F) : TakenFrom v (withoutQuotes v) where
  text := rfl
  exact s hs hplain := by
    rw [hs]
    exact (withoutQuotes_eq_iff s).2 hplain

theorem target_of_resolveEndpoint {env : Env F} {msg : List UInt8} {frame : Frame}
    {aasDescriptor endpoint : List (String × Json F)} {p : Publication F}
    (h : resolveEndpoint env msg frame aasDescriptor endpoint = .ok p) :
    p.target = { aasDescriptor := aasDescriptor, endpoint := endpoint } := by
  unfold resolveEndpoint at h
  simp only [bind, Except.bind] at h
  split at h
  next => cases h
  next =>
    split at h
    next => cases h
    next =>
      cases h
      rfl

theorem routingKey_ok {receiverType key : String} (h : routingKey receiverType = .ok key) :
    (receiverType = "grpc" ∧ key = "egress.grpc") ∨
      ((receiverType = "http" ∨ receiverType = "https") ∧ key = "egress.http") := by
  rcases routingKey_cases receiverType with ⟨hgrpc, hkey⟩ | ⟨hhttp, hkey⟩ | ⟨-, hkey⟩
  · rw [hkey] at h
    exact .inl ⟨hgrpc, (Except.ok.inj h).symm⟩
  · rw [hkey] at h
    exact .inr ⟨hhttp, (Except.ok.inj h).symm⟩
  · rw [hkey] at h
    cases h

theorem egressPayload_named {env : Env F} {msg : List UInt8} {frame : Frame}
    {receiver : ConversationMember} (hreceiver : frame.receiver = some receiver)
    (hnamed : receiverId receiver ≠ none) (aasDescriptor : List (String × Json F)) :
    egressPayload env msg frame aasDescriptor = .ok msg := by
  simp only [egressPayload, hreceiver]
  split
  next => rfl
  next hnone => exact absurd hnone hnamed

theorem names_of_egressPayload {env : Env F} (hpb : env.jsonpb.RoundTrips F)
    {msg : List UInt8} {iMsg : InteractionMessage} {frame : Frame}
    {receiver : ConversationMember}
    (hmsg : newInteractionMessage F env.jsonpb (.bytes msg) = .ok iMsg)
    (hframe : iMsg.frame = some frame) (hreceiver : frame.receiver = some receiver)
    (hunnamed : receiverId receiver = none) {aasDescriptor : List (String × Json F)}
    (hid : isObject (index aasDescriptor "identification")) {payload : List UInt8}
    (h : egressPayload env msg frame aasDescriptor = .ok payload) :
    ∃ identification id idType iMsg',
      index aasDescriptor "identification" = .obj identification ∧
      TakenFrom (index identification "id") id ∧
      TakenFrom (index identification "idType") idType ∧
      Names F env.jsonpb payload iMsg frame receiver id idType iMsg' := by
  simp only [egressPayload, hreceiver, hunnamed] at h
  cases hidentification : index aasDescriptor "identification" with
  | obj identification =>
      obtain ⟨iMsg', hnames⟩ :=
        rewriteReceiver_names hpb hmsg hframe hreceiver hidentification h
      exact ⟨identification, _, _, iMsg', rfl, takenFrom_withoutQuotes _,
        takenFrom_withoutQuotes _, hnames⟩
  | _ =>
      rw [hidentification] at hid
      cases hid

theorem builtFor_of_resolveEndpoint {env : Env F} (hpb : env.jsonpb.RoundTrips F)
    {msg : List UInt8} {iMsg : InteractionMessage} {frame : Frame}
    {receiver : ConversationMember}
    (hmsg : newInteractionMessage F env.jsonpb (.bytes msg) = .ok iMsg)
    (hframe : iMsg.frame = some frame) (hreceiver : frame.receiver = some receiver)
    {t : Target F} (hid : isObject (index t.aasDescriptor "identification"))
    {p : Publication F}
    (h : resolveEndpoint env msg frame t.aasDescriptor t.endpoint = .ok p) :
    BuiltFor env msg iMsg frame receiver t p := by
  have hpublished := publishedFor_of_resolveEndpoint h
  have htarget : p.target = t := target_of_resolveEndpoint h
  have hdescriptor : p.aasDescriptor = t.aasDescriptor := congrArg Target.aasDescriptor htarget
  have hendpoint : p.endpoint = t.endpoint := congrArg Target.endpoint htarget
  have hresolverMsg := hpublished.resolverMsg
  rw [hendpoint] at hresolverMsg
  have htype : p.resolverMsg.receiverType = t.text env "type" := by
    rw [hresolverMsg]
    rfl
  have hkey := hpublished.routingKey
  rw [htype] at hkey
  have hpayload := hpublished.payload
  rw [hdescriptor] at hpayload
  refine {
    target := htarget
    routingKey := routingKey_ok hkey
    receiverURL := by rw [hresolverMsg]; rfl
    receiverType := htype
    receiverTarget := by rw [hresolverMsg]; rfl
    receiverUser := by rw [hresolverMsg]; rfl
    receiverPassword := by rw [hresolverMsg]; rfl
    receiverTLSCert := by rw [hresolverMsg]; rfl
    named := ?_
    unnamed := ?_ }
  · intro hnamed
    rw [egressPayload_named hreceiver hnamed] at hpayload
    exact (Except.ok.inj hpayload).symm
  · intro hunnamed
    exact names_of_egressPayload hpb hmsg hframe hreceiver hunnamed hid hpayload

omit [FloatFormat F] in
theorem identification_of_mem_targets {ds : List (Json F)} (h : ∀ d ∈ ds, WellShaped d)
    {t : Target F} (ht : t ∈ targets ds) :
    isObject (index t.aasDescriptor "identification") := by
  obtain ⟨d, hd, ht⟩ := List.mem_flatMap.1 ht
  have hshaped := h d hd
  cases d with
  | obj aasDescriptor =>
      obtain ⟨endpoint, -, rfl⟩ := List.mem_map.1 ht
      exact hshaped.1
  | _ => cases ht

theorem receiver_of_getAASDescriptors {env : Env F} {frame : Frame} {ds : List (Json F)}
    (h : getAASDescriptorsFromEndpointRegistry env frame = .ok ds) :
    ∃ receiver, frame.receiver = some receiver := by
  unfold getAASDescriptorsFromEndpointRegistry at h
  split at h
  next => cases h
  next receiver hreceiver => exact ⟨receiver, hreceiver⟩

/-- A delivery with a message that is accepted is settled, and it is acknowledged only
when every endpoint of the answer has got its message. -/
theorem acked_complete {env : Env F} (hpb : env.jsonpb.RoundTrips F) {msg : List UInt8}
    {iMsg : InteractionMessage} {frame : Frame}
    (hmsg : newInteractionMessage F env.jsonpb (.bytes msg) = .ok iMsg)
    (hframe : iMsg.frame = some frame)
    (hshaped : ∀ ds, getAASDescriptorsFromEndpointRegistry env frame = .ok ds →
      ∀ d ∈ ds, WellShaped d) :
    ∃ a, processDelivery env msg = some a ∧
      (a = .ack → ∃ receiver ds, frame.receiver = some receiver ∧
        getAASDescriptorsFromEndpointRegistry env frame = .ok ds ∧
        List.Forall₂ (BuiltFor env msg iMsg frame receiver) (targets ds)
          (processGenericEgressMsg env msg).1) := by
  cases hds : getAASDescriptorsFromEndpointRegistry env frame with
  | error e =>
      refine ⟨.nack false false, ?_, fun h => by cases h⟩
      simp only [processDelivery, processGenericEgressMsg, hmsg, hframe, hds]
  | ok ds =>
      have hwell := hshaped ds hds
      obtain ⟨receiver, hreceiver⟩ := receiver_of_getAASDescriptors hds
      have hpass := processGenericEgressMsg_eq hmsg hframe hds hwell
      have hpanic := resolveTargets_ne_panic (n := 0) fun t ht =>
        resolveEndpoint_ne_panic hmsg hframe hreceiver
          (identification_of_mem_targets hwell ht) t.endpoint
      rw [← hpass] at hpanic
      cases hfailure : (processGenericEgressMsg env msg).2 with
      | none =>
          refine ⟨.ack, by rw [processDelivery, hfailure], fun _ => ?_⟩
          refine ⟨receiver, ds, hreceiver, rfl, ?_⟩
          rw [hpass] at hfailure ⊢
          have hboth := (List.forall₂_and_left _ _).2
            ⟨fun t ht => identification_of_mem_targets hwell ht, forall₂_resolveTargets hfailure⟩
          exact hboth.imp fun t p h =>
            builtFor_of_resolveEndpoint hpb hmsg hframe hreceiver h.1 h.2
      | some failure =>
          refine ⟨.nack false false, ?_, fun h => by cases h⟩
          rw [processDelivery, hfailure]
          cases failure with
          | panic => exact absurd hfailure hpanic
          | _ => rfl

/-! A shell with an endpoint of each of some types, for a message to whoever has the
role. -/

def typedEndpoint (type : String) : List (String × Json ℕ) :=
  [("address", .str "https://shell"), ("type", .str type)]

def typedShell (types : List String) : List (String × Json ℕ) :=
  [("descriptor", .obj [("endpoints", .arr (types.map fun t => .obj (typedEndpoint t)))]),
   ("identification", .obj [("id", .str "urn:a"), ("idType", .str "IRI")])]

def typedEnv (types : List String) : Env ℕ :=
  { jsonpb := .standard
    sprintNumber := fun n => n.repr
    certificateParses := fun _ => false
    queryEndpointRegistry := fun _ => .ok (marshal (.arr [.obj (typedShell types)]))
    publish := fun _ _ _ => true }

def roleInteraction : InteractionMessage :=
  { frame := some (roleFrame none), interactionElements := oneElement }

theorem newInteractionMessage_role :
    newInteractionMessage ℕ Jsonpb.standard (.bytes roleMessage) = .ok roleInteraction := by
  decide +kernel

theorem wellShaped_typedShell {types : List String} {ds : List (Json ℕ)}
    (h : ds = [.obj (typedShell types)]) : ∀ d ∈ ds, WellShaped d := by
  intro d hd
  rw [h, List.mem_singleton] at hd
  rw [hd]
  refine ⟨rfl, ?_⟩
  have hendpoints : (types.map fun t => Json.obj (typedEndpoint t)).all isObject := by
    simp [List.all_map, isObject]
  exact hendpoints

theorem acked_complete_typed :
    ∃ a, processDelivery (typedEnv ["https", "grpc"]) roleMessage = some a ∧
      (a = .ack → ∃ receiver ds, (roleFrame none).receiver = some receiver ∧
        getAASDescriptorsFromEndpointRegistry (typedEnv ["https", "grpc"]) (roleFrame none) =
          .ok ds ∧
        List.Forall₂
          (BuiltFor (typedEnv ["https", "grpc"]) roleMessage roleInteraction (roleFrame none)
            receiver)
          (targets ds) (processGenericEgressMsg (typedEnv ["https", "grpc"]) roleMessage).1) := by
  have hds : getAASDescriptorsFromEndpointRegistry (typedEnv ["https", "grpc"])
      (roleFrame none) = .ok [.obj (typedShell ["https", "grpc"])] := by
    decide +kernel
  exact acked_complete Jsonpb.standard_roundTrips newInteractionMessage_role rfl fun ds h =>
    wellShaped_typedShell (Except.ok.inj (h.symm.trans hds))

/-! Who gets a message. -/

section

variable {α : Type}

/-- A prefix has all that the predicate holds of when nothing it holds of comes later. -/
theorem takeWhile_perm_filter_iff (P : α → Bool) (l : List α) :
    (l.takeWhile P).Perm (l.filter P) ↔ l.Pairwise fun a b => P b → P a := by
  induction l with
  | nil => simp
  | cons a l ih =>
      rw [List.pairwise_cons, ← ih]
      by_cases ha : P a
      · rw [List.takeWhile_cons_of_pos ha, List.filter_cons_of_pos ha, List.perm_cons]
        exact ⟨fun h => ⟨fun _ _ _ => ha, h⟩, fun h => h.2⟩
      · rw [List.takeWhile_cons_of_neg ha, List.filter_cons_of_neg ha, List.nil_perm]
        constructor
        · intro hnone
          have hlater : ∀ b ∈ l, ¬ P b := List.filter_eq_nil_iff.1 hnone
          have hprefix : l.takeWhile P = [] := by
            cases l with
            | nil => rfl
            | cons b l => exact List.takeWhile_cons_of_neg (hlater b List.mem_cons_self)
          rw [hnone, hprefix]
          exact ⟨fun b hb hPb => absurd hPb (hlater b hb), .nil⟩
        · intro h
          exact List.filter_eq_nil_iff.2 fun b hb hPb => ha (h.1 b hb hPb)

end

def Target.supported (env : Env F) (t : Target F) : Bool :=
  t.text env "type" ∈ ["grpc", "http", "https"]

/-- The message names an id, or the descriptor has an identification to put in. -/
def Target.Placed (named : Bool) (t : Target F) : Prop :=
  named = true ∨ isObject (index t.aasDescriptor "identification") = true

section

variable {env : Env F} {msg : List UInt8} {iMsg : InteractionMessage} {frame : Frame}
  {receiver : ConversationMember}

theorem egressPayload_of_placed (hprints : env.jsonpb.Prints)
    (hmsg : newInteractionMessage F env.jsonpb (.bytes msg) = .ok iMsg)
    (hframe : iMsg.frame = some frame) (hreceiver : frame.receiver = some receiver)
    {t : Target F} (ht : t.Placed (receiverId receiver).isSome) :
    ∃ payload, egressPayload env msg frame t.aasDescriptor = .ok payload := by
  rcases ht with hnamed | hid
  · have hne := Option.isSome_iff_ne_none.mp hnamed
    exact ⟨msg, egressPayload_named hreceiver hne t.aasDescriptor⟩
  · rcases egressPayload_cases hmsg hframe hreceiver hid with h | ⟨copy, h⟩
    · exact ⟨msg, h⟩
    · obtain ⟨text, htext⟩ := hprints copy
      rw [htext] at h
      exact ⟨_, h⟩

/-- An endpoint fails for its type or not at all. -/
def FailsByType (env : Env F) (msg : List UInt8) (frame : Frame) (t : Target F) : Prop :=
  (t.supported env = true ∧
    ∃ p, resolveEndpoint env msg frame t.aasDescriptor t.endpoint = .ok p) ∨
  (t.supported env = false ∧ resolveEndpoint env msg frame t.aasDescriptor t.endpoint =
    .error (.unsupportedType (t.text env "type")))

theorem failsByType_of_placed (hprints : env.jsonpb.Prints)
    (hmsg : newInteractionMessage F env.jsonpb (.bytes msg) = .ok iMsg)
    (hframe : iMsg.frame = some frame) (hreceiver : frame.receiver = some receiver)
    {t : Target F} (ht : t.Placed (receiverId receiver).isSome) :
    FailsByType env msg frame t := by
  obtain ⟨payload, hpayload⟩ := egressPayload_of_placed hprints hmsg hframe hreceiver ht
  have htype : (resolverMsg env t.endpoint payload).receiverType = t.text env "type" := rfl
  simp only [FailsByType, resolveEndpoint, hpayload, bind, Except.bind, htype, Target.supported]
  rcases routingKey_cases (t.text env "type") with ⟨hgrpc, h⟩ | ⟨hhttp, h⟩ | ⟨hother, h⟩
  · rw [h]
    exact .inl ⟨by simp [hgrpc], _, rfl⟩
  · rw [h]
    exact .inl ⟨by rcases hhttp with hhttp | hhttp <;> simp [hhttp], _, rfl⟩
  · rw [h]
    exact .inr ⟨decide_eq_false hother, rfl⟩

/-- Where jsonpb prints every frame, only the type of an endpoint can be refused. -/
theorem resolveEndpoint_isOk (hprints : env.jsonpb.Prints)
    (hmsg : newInteractionMessage F env.jsonpb (.bytes msg) = .ok iMsg)
    (hframe : iMsg.frame = some frame) (hreceiver : frame.receiver = some receiver)
    {t : Target F} (hid : isObject (index t.aasDescriptor "identification")) :
    (resolveEndpoint env msg frame t.aasDescriptor t.endpoint).isOk = t.supported env := by
  rcases failsByType_of_placed hprints hmsg hframe hreceiver (t := t) (.inr hid) with
    ⟨hsupported, p, hp⟩ | ⟨hsupported, hp⟩
  · rw [hp, hsupported]
    rfl
  · rw [hp, hsupported]
    rfl

end

/-- With a broker that takes everything the pass stops at the first unsupported
endpoint. -/
theorem resolveTargets_eq_takeWhile {env : Env F}
    (hpublish : ∀ n key payload, env.publish n key payload = true) {msg : List UInt8}
    {frame : Frame} {ts : List (Target F)}
    (h : ∀ t ∈ ts, (resolveEndpoint env msg frame t.aasDescriptor t.endpoint).isOk =
      t.supported env) (n : ℕ) :
    (resolveTargets env msg frame n ts).1.map Publication.target =
      ts.takeWhile (Target.supported env) := by
  induction ts generalizing n with
  | nil => rfl
  | cons t ts ih =>
      have ht := h t List.mem_cons_self
      rw [resolveTargets]
      split
      next p hp =>
        rw [hp] at ht
        rw [if_pos (hpublish _ _ _), List.takeWhile_cons_of_pos ht.symm]
        have hrest := ih (fun t' ht' => h t' (List.mem_cons_of_mem t ht')) (n + 1)
        rw [← hrest, List.map_cons, target_of_resolveEndpoint hp]
      next failure hfailure =>
        rw [hfailure] at ht
        rw [List.takeWhile_cons_of_neg (by rw [← ht]; exact Bool.false_ne_true)]
        rfl

/-- One message for each endpoint of a supported type, and no others. -/
def ReachesAll (env : Env F) (msg : List UInt8) (ds : List (Json F)) : Prop :=
  ((processGenericEgressMsg env msg).1.map Publication.target).Perm
    ((targets ds).filter (Target.supported env))

theorem reachesAll_iff {env : Env F} (hprints : env.jsonpb.Prints)
    (hpublish : ∀ n key payload, env.publish n key payload = true) {msg : List UInt8}
    {iMsg : InteractionMessage} {frame : Frame} {ds : List (Json F)}
    (hmsg : newInteractionMessage F env.jsonpb (.bytes msg) = .ok iMsg)
    (hframe : iMsg.frame = some frame)
    (hds : getAASDescriptorsFromEndpointRegistry env frame = .ok ds)
    (hshaped : ∀ d ∈ ds, WellShaped d) :
    ReachesAll env msg ds ↔
      (targets ds).Pairwise fun t u => u.supported env → t.supported env := by
  obtain ⟨receiver, hreceiver⟩ := receiver_of_getAASDescriptors hds
  have hprefix := resolveTargets_eq_takeWhile hpublish (n := 0) fun t ht =>
    resolveEndpoint_isOk hprints hmsg hframe hreceiver
      (identification_of_mem_targets hshaped ht)
  rw [ReachesAll, processGenericEgressMsg_eq hmsg hframe hds hshaped, hprefix]
  exact takeWhile_perm_filter_iff _ _

theorem reachesAll_iff_typed :
    ReachesAll (typedEnv ["https", "mqtt"]) roleMessage
        [.obj (typedShell ["https", "mqtt"])] ↔
      (targets [.obj (typedShell ["https", "mqtt"])]).Pairwise fun t u =>
        u.supported (typedEnv ["https", "mqtt"]) → t.supported (typedEnv ["https", "mqtt"]) := by
  have hds : getAASDescriptorsFromEndpointRegistry (typedEnv ["https", "mqtt"])
      (roleFrame none) = .ok [.obj (typedShell ["https", "mqtt"])] := by
    decide +kernel
  exact reachesAll_iff Jsonpb.standard_prints (fun _ _ _ => rfl) newInteractionMessage_role rfl
    hds (wellShaped_typedShell rfl)

/-- The endpoint behind the unsupported one gets nothing. -/
theorem not_reachesAll_mqtt :
    (processGenericEgressMsg (typedEnv ["mqtt", "https"]) roleMessage).1 = [] ∧
      processDelivery (typedEnv ["mqtt", "https"]) roleMessage = some (.nack false false) ∧
      ¬ ReachesAll (typedEnv ["mqtt", "https"]) roleMessage
        [.obj (typedShell ["mqtt", "https"])] := by
  have hnone : (processGenericEgressMsg (typedEnv ["mqtt", "https"]) roleMessage).1 = [] := by
    decide +kernel
  refine ⟨hnone, by decide +kernel, ?_⟩
  intro hreaches
  rw [ReachesAll, hnone, List.map_nil, List.nil_perm] at hreaches
  exact absurd hreaches (by decide +kernel)

end I40Aas.EndpointResolver
