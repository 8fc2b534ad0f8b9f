import I40Aas.Interaction.Message
import I40Aas.Lib.Base64

/-!
The endpoint resolver: it asks the endpoint registry for the descriptors of the
receiver of a message and publishes one resolver message for each of their
endpoints. Where the message names no receiver id, each of them gets a copy of the
message that names the descriptor.

The broker, the registry and the certificate parser are parameters. A publication
records the descriptor and the endpoint it was made for.
-/

namespace I40Aas.EndpointResolver

open I40Aas.Lib I40Aas.Lib.Json I40Aas.Interaction

structure ResolverMsg where
  egressPayload : List UInt8
  receiverURL : String
  receiverType : String
  receiverTarget : String
  receiverTLSCert : Option String
  receiverUser : Option String
  receiverPassword : Option String
  deriving DecidableEq, Repr

structure Env (F : Type) where
  jsonpb : Jsonpb
  /-- `%v` of a number. -/
  sprintNumber : F → String
  /-- `pem.Decode` finds a block and `x509.ParseCertificate` accepts it. -/
  certificateParses : String → Bool
  /-- The body that a route of the registry answers with. -/
  queryEndpointRegistry : String → Except Error (List UInt8)
  /-- The broker takes the message, after this many others of the delivery. -/
  publish : ℕ → String → List UInt8 → Bool

inductive Failure
  | panic
  | err (e : Error)
  | unsupportedType (rType : String)
  | publish
  deriving DecidableEq, Repr

structure Publication (F : Type) where
  aasDescriptor : List (String × Json F)
  endpoint : List (String × Json F)
  routingKey : String
  resolverMsg : ResolverMsg
  deriving DecidableEq

variable {F : Type}

/-! `fmt.Sprintf("%v", v)`. -/

section

variable (sprintNumber : F → String)

mutual

def sprint : Json F → String
  | .null => "<nil>"
  | .bool b => if b then "true" else "false"
  | .num x => sprintNumber x
  | .str s => s
  | .arr [] => "[]"
  | .arr (e :: es) => "[" ++ sprint e ++ sprintElements es
  | .obj [] => "map[]"
  | .obj ((k, v) :: ms) => "map[" ++ k ++ ":" ++ sprint v ++ sprintMembers ms

def sprintElements : List (Json F) → String
  | [] => "]"
  | e :: es => " " ++ sprint e ++ sprintElements es

def sprintMembers : List (String × Json F) → String
  | [] => "]"
  | (k, v) :: ms => " " ++ k ++ ":" ++ sprint v ++ sprintMembers ms

end

end

/-! `json.Marshal(resolverMsg)`: bytes are written in base64 and nil pointers as null. -/

def stringPointer : Option String → Json Literal
  | some s => .str s
  | none => .null

namespace ResolverMsg

def json (m : ResolverMsg) : Json Literal :=
  .obj
    [("EgressPayload", .str (String.ofList (Base64.encode m.egressPayload))),
     ("ReceiverURL", .str m.receiverURL),
     ("ReceiverType", .str m.receiverType),
     ("ReceiverTarget", .str m.receiverTarget),
     ("ReceiverTLSCert", stringPointer m.receiverTLSCert),
     ("ReceiverUser", stringPointer m.receiverUser),
     ("ReceiverPassword", stringPointer m.receiverPassword)]

def payload (m : ResolverMsg) : List UInt8 :=
  Utf8.bytes m.json.text

end ResolverMsg

/-! The registry. -/

def isUnreserved (b : UInt8) : Bool :=
  let c := Char.ofNat b.toNat
  b < 128 ∧ (c.isAlphanum ∨ c ∈ ['-', '_', '.', '~'])

def upperHex (n : Nat) : Char :=
  if n < 10 then Char.ofNat ('0'.toNat + n) else Char.ofNat ('A'.toNat + (n - 10))

/-- `url.QueryEscape`. -/
def queryEscape (s : String) : String :=
  String.ofList ((goString s).flatMap fun b =>
    if isUnreserved b then [Char.ofNat b.toNat]
    else if b = 32 then ['+']
    else ['%', upperHex (b.toNat / 16), upperHex (b.toNat % 16)])

variable [FloatFormat F]

/-- `json.Unmarshal` into a slice, which `null` leaves empty. -/
def unmarshalSlice (resp : List UInt8) : Except Error (List (Json F)) :=
  match (unmarshal resp : Option (Json F)) with
  | some (.arr dat) => .ok dat
  | some .null => .ok []
  | _ => .error .encodingJson

def receiverMissing : Error :=
  .errorf ("(receiverId && receiverIdType) || (receiverRole && semanticProtocol) " ++
    "has not been specified correctly")

/-- The id that the message names its receiver by. -/
def receiverId (receiver : ConversationMember) : Option String :=
  match receiver.identification with
  | some identification => if identification.id = "" then none else some identification.id
  | none => none

def receiverRole (receiver : ConversationMember) : Option String :=
  match receiver.role with
  | some role => if role.name = "" then none else some role.name
  | none => none

def getAASDescriptorsFromEndpointRegistry (env : Env F) (frame : Frame) :
    Except Error (List (Json F)) :=
  match frame.receiver with
  | none => .error receiverMissing
  | some receiver =>
    match receiverId receiver, receiverRole receiver with
    | some id, _ => do
      let registryResp ← env.queryEndpointRegistry ("/AASDescriptors/" ++ queryEscape id)
      -- an empty object: nobody is known by this id
      if registryResp = goString "{}" then
        return []
      unmarshalSlice (goString "[" ++ registryResp ++ goString "]")
    | none, some role => do
      if frame.semanticProtocol = "" then
        throw receiverMissing
      let registryResp ← env.queryEndpointRegistry
        ("/semanticProtocols/" ++ queryEscape frame.semanticProtocol ++ "/role/" ++
          queryEscape role ++ "/AASDescriptors")
      if registryResp = goString "[]" then
        return []
      unmarshalSlice registryResp
    | none, none => .error receiverMissing

/-! The messages. -/

/-- `strings.Replace(string(jsonValue), "\"", "", -1)` of a marshalled value. -/
def withoutQuotes (v : Json F) : String :=
  String.ofList ((encode v).text.filter (· ≠ '"'))

/-- The copy of the message that names the descriptor as its receiver. -/
def rewriteReceiver (env : Env F) (msg : List UInt8) (aasDescriptor : List (String × Json F)) :
    Except Failure (List UInt8) :=
  match index aasDescriptor "identification" with
  | .obj identification =>
    let id := index identification "id"
    let idType := index identification "idType"
    match newInteractionMessage F env.jsonpb (.bytes msg) with
    | .ok { frame := some frame, interactionElements := _ } =>
      match frame.receiver with
      | some receiver =>
        let receiver' := { receiver with
          identification := some { id := withoutQuotes id, idType := withoutQuotes idType } }
        match unmarshalMap F msg with
        | .ok dat =>
          match index dat "interactionElements" with
          | .arr msgElements =>
            match env.jsonpb.marshalToString
                (some { frame with receiver := some receiver' }) with
            | .ok frameJSON => .ok (concatMessage frameJSON (marshal (.arr msgElements)))
            | .error e => .error (.err e)
          | _ => .error .panic
        | .error e => .error (.err e)
      | none => .error .panic
    | _ => .error .panic
  | _ => .error .panic

def routingKey (rType : String) : Except Failure String :=
  if rType = "grpc" then .ok "egress.grpc"
  else if rType = "http" ∨ rType = "https" then .ok "egress.http"
  else .error (.unsupportedType rType)

def egressPayload (env : Env F) (msg : List UInt8) (frame : Frame)
    (aasDescriptor : List (String × Json F)) : Except Failure (List UInt8) :=
  match frame.receiver with
  | some receiver =>
    match receiverId receiver with
    | some _ => .ok msg
    | none => rewriteReceiver env msg aasDescriptor
  | none => .error .panic

omit [FloatFormat F] in
/-- The message for one endpoint: every field is printed, whatever its value is. -/
def resolverMsg (env : Env F) (endpoint : List (String × Json F)) (payload : List UInt8) :
    ResolverMsg :=
  let sprintf key := sprint env.sprintNumber (index endpoint key)
  let tlsCert :=
    if env.certificateParses (sprintf "tls_certificate") then sprintf "tls_certificate" else ""
  { egressPayload := payload
    receiverURL := sprintf "address"
    receiverType := sprintf "type"
    receiverTarget := sprintf "target"
    receiverTLSCert := some tlsCert
    receiverUser := some (sprintf "user")
    receiverPassword := some (sprintf "password") }

/-- One endpoint, up to the call of the broker. -/
def resolveEndpoint (env : Env F) (msg : List UInt8) (frame : Frame)
    (aasDescriptor endpoint : List (String × Json F)) : Except Failure (Publication F) := do
  let payload ← egressPayload env msg frame aasDescriptor
  let resolverMsg := resolverMsg env endpoint payload
  let key ← routingKey resolverMsg.receiverType
  return {
    aasDescriptor := aasDescriptor
    endpoint := endpoint
    routingKey := key
    resolverMsg := resolverMsg }

/-- What has been published, and the failure that ended the work, if any. -/
abbrev Outcome (F : Type) := List (Publication F) × Option Failure

/-- `n` messages have been published before. -/
def resolveEndpoints (env : Env F) (msg : List UInt8) (frame : Frame)
    (aasDescriptor : List (String × Json F)) (n : ℕ) : List (Json F) → Outcome F
  | [] => ([], none)
  | .obj endpoint :: endpoints =>
    match resolveEndpoint env msg frame aasDescriptor endpoint with
    | .ok p =>
      if env.publish n p.routingKey p.resolverMsg.payload then
        let (published, failure) :=
          resolveEndpoints env msg frame aasDescriptor (n + 1) endpoints
        (p :: published, failure)
      else ([], some .publish)
    | .error failure => ([], some failure)
  | _ :: _ => ([], some .panic)

/-- Descriptors without `descriptor` or `endpoints` are dropped. -/
def resolveDescriptor (env : Env F) (msg : List UInt8) (frame : Frame) (n : ℕ) :
    Json F → Outcome F
  | .obj aasDescriptor =>
    match index aasDescriptor "descriptor" with
    | .null => ([], none)
    | .obj descriptor =>
      match index descriptor "endpoints" with
      | .null => ([], none)
      | .arr endpoints => resolveEndpoints env msg frame aasDescriptor n endpoints
      | _ => ([], some .panic)
    | _ => ([], some .panic)
  | _ => ([], some .panic)

def resolveDescriptors (env : Env F) (msg : List UInt8) (frame : Frame) (n : ℕ) :
    List (Json F) → Outcome F
  | [] => ([], none)
  | d :: ds =>
    match resolveDescriptor env msg frame n d with
    | (published, none) =>
      let (published', failure) := resolveDescriptors env msg frame (n + published.length) ds
      (published ++ published', failure)
    | (published, some failure) => (published, some failure)

def processGenericEgressMsg (env : Env F) (msg : List UInt8) : Outcome F :=
  match newInteractionMessage F env.jsonpb (.bytes msg) with
  | .error e => ([], some (.err e))
  | .ok iMsg =>
    match iMsg.frame with
    | none => ([], some (.err (.errorf "iMsg.Frame has not been specified correctly")))
    | some frame =>
      match getAASDescriptorsFromEndpointRegistry env frame with
      | .error _ => ([], some (.err (.errorf "queryEndpointRegistry unsuccessful")))
      | .ok aasDescriptors => resolveDescriptors env msg frame 0 aasDescriptors

inductive Acknowledgement
  | ack
  | nack (multiple requeue : Bool)
  deriving DecidableEq, Repr

/-- A panic ends the process before either. -/
def processDelivery (env : Env F) (body : List UInt8) : Option Acknowledgement :=
  match (processGenericEgressMsg env body).2 with
  | none => some .ack
  | some .panic => none
  | some _ => some (.nack false false)

/-! Where a publication comes from. -/

/-- What one endpoint of one descriptor gives for a message. -/
structure PublishedFor (env : Env F) (msg : List UInt8) (frame : Frame)
    (p : Publication F) : Prop where
  payload : egressPayload env msg frame p.aasDescriptor = .ok p.resolverMsg.egressPayload
  routingKey : routingKey p.resolverMsg.receiverType = .ok p.routingKey
  resolverMsg : p.resolverMsg = resolverMsg env p.endpoint p.resolverMsg.egressPayload

theorem publishedFor_of_resolveEndpoint {env : Env F} {msg : List UInt8} {frame : Frame}
    {aasDescriptor endpoint : List (String × Json F)} {p : Publication F}
    (h : resolveEndpoint env msg frame aasDescriptor endpoint = .ok p) :
    PublishedFor env msg frame p := by
  unfold resolveEndpoint at h
  cases hpayload : egressPayload env msg frame aasDescriptor with
  | error e => simp [hpayload, bind, Except.bind] at h
  | ok payload =>
      simp only [hpayload, bind, Except.bind] at h
      split at h
      next => cases h
      next key hkey =>
        cases h
        exact ⟨hpayload, hkey, rfl⟩

theorem publishedFor_of_mem_resolveEndpoints {env : Env F} {msg : List UInt8}
    {frame : Frame} {aasDescriptor : List (String × Json F)} {n : ℕ} {endpoints : List (Json F)}
    {p : Publication F}
    (h : p ∈ (resolveEndpoints env msg frame aasDescriptor n endpoints).1) :
    PublishedFor env msg frame p := by
  induction endpoints generalizing n with
  | nil => cases h
  | cons e endpoints ih =>
      cases e with
      | obj endpoint =>
          simp only [resolveEndpoints] at h
          split at h
          next p' hp' =>
            split at h
            next =>
              cases h with
              | head => exact publishedFor_of_resolveEndpoint hp'
              | tail _ h => exact ih h
            next => cases h
          next => cases h
      | _ => cases h

theorem publishedFor_of_mem_resolveDescriptor {env : Env F} {msg : List UInt8}
    {frame : Frame} {n : ℕ} {d : Json F} {p : Publication F}
    (h : p ∈ (resolveDescriptor env msg frame n d).1) : PublishedFor env msg frame p := by
  unfold resolveDescriptor at h
  split at h
  next =>
    split at h
    next => cases h
    next =>
      split at h
      next => cases h
      next => exact publishedFor_of_mem_resolveEndpoints h
      next => cases h
    next => cases h
  next => cases h

theorem publishedFor_of_mem_resolveDescriptors {env : Env F} {msg : List UInt8}
    {frame : Frame} {n : ℕ} {ds : List (Json F)} {p : Publication F}
    (h : p ∈ (resolveDescriptors env msg frame n ds).1) : PublishedFor env msg frame p := by
  induction ds generalizing n with
  | nil => cases h
  | cons d ds ih =>
      unfold resolveDescriptors at h
      split at h
      next published hd =>
        have hfirst : p ∈ published → PublishedFor env msg frame p := fun hp =>
          publishedFor_of_mem_resolveDescriptor (d := d) (by rw [hd]; exact hp)
        cases List.mem_append.1 h with
        | inl hp => exact hfirst hp
        | inr hp => exact ih hp
      next published failure hd =>
        exact publishedFor_of_mem_resolveDescriptor (d := d) (by rw [hd]; exact h)

theorem publishedFor_of_mem {env : Env F} {msg : List UInt8} {p : Publication F}
    (h : p ∈ (processGenericEgressMsg env msg).1) :
    ∃ iMsg frame, newInteractionMessage F env.jsonpb (.bytes msg) = .ok iMsg ∧
      iMsg.frame = some frame ∧ PublishedFor env msg frame p := by
  unfold processGenericEgressMsg at h
  split at h
  next => cases h
  next iMsg himsg =>
    split at h
    next => cases h
    next frame hframe =>
      split at h
      next => cases h
      next => exact ⟨iMsg, frame, himsg, hframe, publishedFor_of_mem_resolveDescriptors h⟩

end I40Aas.EndpointResolver
