import I40Aas.EndpointResolver.ReceiverRewriting
import I40Aas.Interaction.Conversion
import I40Aas.Interaction.Jsonpb

/-!
The gRPC egress, and the way of a message from the resolver through it to the gRPC
ingress on the other side. The remote call hands the message over as it is, so there
are four conversions: out of the resolver message, from JSON, to JSON, and from JSON
again at whoever consumes the text. None of them fails, and the text is the message
again (`grpcPath_preserves`).
-/

namespace I40Aas.GrpcEgress

open I40Aas.Lib I40Aas.Lib.Json I40Aas.Interaction I40Aas.EndpointResolver

/-! `json.Unmarshal` into a resolver message. Names and base64 are taken as the resolver
writes them. -/

def pointerOf : Json Literal → Option (Option String)
  | .null => some none
  | .str s => some (some s)
  | _ => none

def bytesOf : Json Literal → Option (List UInt8)
  | .null => some []
  | .str s =>
    let decoded := Base64.decode s.toList
    if Base64.encode decoded = s.toList then some decoded else none
  | _ => none

/-- The last member of each name counts, and a null or missing one leaves the field at its
zero value. -/
def resolverMsgOf (ms : List (String × Json Literal)) : Option ResolverMsg := do
  let dat := ofMembers ms
  let egressPayload ← bytesOf (index dat "EgressPayload")
  let receiverURL ← stringOf (index dat "ReceiverURL")
  let receiverType ← stringOf (index dat "ReceiverType")
  let receiverTarget ← stringOf (index dat "ReceiverTarget")
  let receiverTLSCert ← pointerOf (index dat "ReceiverTLSCert")
  let receiverUser ← pointerOf (index dat "ReceiverUser")
  let receiverPassword ← pointerOf (index dat "ReceiverPassword")
  return {
    egressPayload := egressPayload
    receiverURL := receiverURL
    receiverType := receiverType
    receiverTarget := receiverTarget
    receiverTLSCert := receiverTLSCert
    receiverUser := receiverUser
    receiverPassword := receiverPassword }

/-- A null has no members, and nothing else is read into a struct. -/
def membersOf : Json Literal → Option (List (String × Json Literal))
  | .obj ms => some ms
  | .null => some []
  | _ => none

def unmarshalResolverMsg (body : List UInt8) : Except Error ResolverMsg :=
  match read body with
  | none => .error .encodingJson
  | some t =>
    if t.depth ≤ maxNestingDepth then
      match (membersOf t).bind resolverMsgOf with
      | some rMsg => .ok rMsg
      | none => .error .encodingJson
    else .error .encodingJson

structure GRPCClientConfig where
  url : String
  tlsEnabled : Bool
  cert : String
  deriving DecidableEq, Repr

/-- What the consumer loop does with a delivery, up to the remote call. -/
inductive Consumed
  | skipped (err : Error)
  | panic
  | unsent
  | sendInteractionMessage (cfg : GRPCClientConfig) (iMsg : InteractionMessage)
  deriving DecidableEq, Repr

section

variable (F : Type) [FloatFormat F] (pb : Jsonpb)

def consume (body : List UInt8) : Consumed :=
  match unmarshalResolverMsg body with
  | .error err => .skipped err
  | .ok rMsg =>
    match newInteractionMessage F pb (.bytes rMsg.egressPayload) with
    | .error err => .skipped err
    | .ok iMsg =>
      -- the certificate is already dereferenced for the log
      match rMsg.receiverTLSCert with
      | none => .panic
      | some cert =>
        if rMsg.receiverTarget = "cloud" then
          .sendInteractionMessage
            { url := rMsg.receiverURL, tlsEnabled := cert ≠ "", cert := cert } iMsg
        else .unsent

/-- From the body of a resolver message to the text that the gRPC ingress publishes. -/
def grpcPath (body : List UInt8) : Except Error (List UInt8) := do
  let rMsg ← unmarshalResolverMsg body
  let iMsg ← newInteractionMessage F pb (.bytes rMsg.egressPayload)
  iMsg.toRawJSON pb

end

/-! The resolver message. -/

theorem pointerOf_stringPointer (s : Option String) : pointerOf (stringPointer s) = some s := by
  cases s <;> rfl

theorem depth_stringPointer (s : Option String) : (stringPointer s).depth = 0 := by
  cases s <;> rfl

theorem bytesOf_encode (payload : List UInt8) :
    bytesOf (.str (String.ofList (Base64.encode payload))) = some payload := by
  simp [bytesOf, Base64.decode_encode]

theorem unmarshalResolverMsg_payload (m : ResolverMsg) :
    unmarshalResolverMsg m.payload = .ok m := by
  have hread : read m.payload = some m.json := read_text _
  have hfields : resolverMsgOf
      [("EgressPayload", .str (String.ofList (Base64.encode m.egressPayload))),
       ("ReceiverURL", .str m.receiverURL),
       ("ReceiverType", .str m.receiverType),
       ("ReceiverTarget", .str m.receiverTarget),
       ("ReceiverTLSCert", stringPointer m.receiverTLSCert),
       ("ReceiverUser", stringPointer m.receiverUser),
       ("ReceiverPassword", stringPointer m.receiverPassword)] = some m := by
    simp (disch := simp) only [resolverMsgOf, index_ofMembers]
    simp [index, lookup_cons_eq_ite, bytesOf_encode, stringOf, pointerOf_stringPointer]
  have hdepth : m.json.depth ≤ maxNestingDepth := by
    have hmax : maxNestingDepth = 10000 := rfl
    simp only [ResolverMsg.json, depth, depthMembers, depth_stringPointer]
    omega
  rw [unmarshalResolverMsg, hread]
  simp only [if_pos hdepth]
  rw [ResolverMsg.json, membersOf, Option.bind_some, hfields]

/-! The consumer loop. -/

section

variable {F : Type} [FloatFormat F] {pb : Jsonpb}

/-- What is sent takes the path to its end. -/
theorem grpcPath_of_consume {body : List UInt8} {cfg : GRPCClientConfig}
    {iMsg : InteractionMessage} (h : consume F pb body = .sendInteractionMessage cfg iMsg) :
    grpcPath F pb body = iMsg.toRawJSON pb := by
  unfold consume at h
  split at h
  next => cases h
  next rMsg hrMsg =>
    split at h
    next => cases h
    next iMsg' hmsg =>
      split at h
      next => cases h
      next =>
        split at h
        next =>
          cases h
          simp only [grpcPath, hrMsg, hmsg, bind, Except.bind]
        next => cases h

/-- The resolver always gives a certificate, an empty one if need be. -/
theorem consume_published_ne_panic {env : Env F} {msg : List UInt8} {p : Publication F}
    (hp : p ∈ (processGenericEgressMsg env msg).1) :
    consume F pb p.resolverMsg.payload ≠ .panic := by
  obtain ⟨_, _, -, -, hpublished⟩ := publishedFor_of_mem hp
  have hcert := congrArg ResolverMsg.receiverTLSCert hpublished.resolverMsg
  rw [consume, unmarshalResolverMsg_payload]
  simp only [hcert, resolverMsg]
  split
  next => simp
  next => split <;> simp

end

/-! The four conversions. -/

section

variable {F : Type} [FloatFormat F] {pb : Jsonpb}

theorem marshal_arr_ne_nil (es : List (Json F)) : marshal (.arr es) ≠ [] := by
  intro h
  have hread : read (marshal (.arr es)) = some (encode (.arr es)) := read_text _
  rw [h] at hread
  cases hread

/-- A message that was read is written again. -/
theorem toRawJSON_of_newInteractionMessage (hprints : pb.Prints) {text : List UInt8}
    {im : InteractionMessage} (h : newInteractionMessage F pb (.bytes text) = .ok im) :
    ∃ text', im.toRawJSON pb = .ok text' := by
  obtain ⟨_, _, es, protoFrame, -, -, -, -, rfl⟩ := fromRawJSON_ok h
  obtain ⟨frameJSON, hframe⟩ := hprints protoFrame
  refine ⟨concatMessage frameJSON (marshal (.arr es)), ?_⟩
  rw [toRawJSON_eq, InteractionMessage.toString]
  simp only [hframe, bind, Except.bind, marshal_arr_ne_nil, if_false]
  rfl

theorem grpcPath_preserves (hpb : pb.RoundTrips F) (hprints : pb.Prints) {m : ResolverMsg}
    {im : InteractionMessage}
    (hmsg : newInteractionMessage F pb (.bytes m.egressPayload) = .ok im) :
    ∃ text im', grpcPath F pb m.payload = .ok text ∧
      newInteractionMessage F pb (.bytes text) = .ok im' ∧ im'.frame = im.frame ∧
      JsonEqual F im'.interactionElements im.interactionElements := by
  obtain ⟨text, htext⟩ := toRawJSON_of_newInteractionMessage hprints hmsg
  obtain ⟨frameJSON, hframe, rfl⟩ := toString_ok (toRawJSON_eq im ▸ htext)
  obtain ⟨im', hdecodes⟩ := decodes_of_isArrayText hpb hframe
    (isArrayText_of_newInteractionMessage hmsg)
  refine ⟨_, im', ?_, hdecodes.accepted, hdecodes.frame, hdecodes.interactionElements⟩
  simp only [grpcPath, unmarshalResolverMsg_payload, bind, Except.bind, hmsg, htext]

end

/-! A message of an operator with a submodel. -/

def submodelElements : Json ℕ :=
  .arr [.obj [("idShort", .str "nameplate"),
    ("submodelElements", .arr [.obj [("value", .arr [.num 1, .null, .obj [("text", .str "a")]])]])]]

def submodelMessage : List UInt8 :=
  marshal (.obj
    [("frame", .obj
      [("receiver", .obj [("role", .obj [("name", .str "Operator")])]),
       ("semanticProtocol", .str "i40")]),
     ("interactionElements", submodelElements)])

def submodelInteraction : InteractionMessage :=
  { frame := some (roleFrame none), interactionElements := marshal submodelElements }

def cloudResolverMsg (egressPayload : List UInt8) : ResolverMsg :=
  { egressPayload := egressPayload
    receiverURL := "shell:443"
    receiverType := "grpc"
    receiverTarget := "cloud"
    receiverTLSCert := some ""
    receiverUser := none
    receiverPassword := none }

theorem grpcPath_preserves_submodel :
    ∃ text im',
      grpcPath ℕ Jsonpb.standard (cloudResolverMsg submodelMessage).payload = .ok text ∧
      newInteractionMessage ℕ Jsonpb.standard (.bytes text) = .ok im' ∧
      im'.frame = submodelInteraction.frame ∧
      JsonEqual ℕ im'.interactionElements submodelInteraction.interactionElements := by
  have hmsg : newInteractionMessage ℕ Jsonpb.standard
      (.bytes (cloudResolverMsg submodelMessage).egressPayload) = .ok submodelInteraction := by
    decide +kernel
  exact grpcPath_preserves Jsonpb.standard_roundTrips Jsonpb.standard_prints hmsg

end I40Aas.GrpcEgress
