import I40Aas.HttpsIngress.Topic
import I40Aas.OnboardingSkill.Reply

/-!
`POST /interaction` of the https ingress, from the check of the frame to the answer. A
failure on the way is an exception, which becomes an error status, except for the one of
a broker that is not connected: there `publishInteractionToBroker` returns an `Error`, and
the handler sends it with status 200.
-/

namespace I40Aas.HttpsIngress

open I40Aas.Lib I40Aas.Lib.Json I40Aas.OnboardingSkill

/-! The AMQP client. -/

/-- `publish(exchange, routingKey, content)` of a channel, which may throw. -/
abbrev Channel := String → String → List UInt8 → Except String Unit

structure AmqpClient where
  brokerExchange : String
  connectionClosed : Bool
  pubChannel : Option Channel

namespace AmqpClient

def isConnected (c : AmqpClient) : Bool :=
  if c.connectionClosed then false else true

def publish (c : AmqpClient) (routingKey : String) (msg : List UInt8) : Except String Unit :=
  if c.connectionClosed then .error "Cannot publish to closed channel"
  else
    match c.pubChannel with
    | none => .error "No publication channel available"
    | some channel => channel c.brokerExchange routingKey msg

end AmqpClient

/-- A call of `publish`, and whether it has returned. If it throws, nothing is sent. -/
structure PublishCall where
  routingKey : String
  msg : List UInt8
  returned : Bool
  deriving DecidableEq, Repr

/-! The handler. -/

/-- What `next` is called with. -/
inductive HandlerError
  | httpClientError (statusCode : ℕ) (message : String)
  | error (message : String)
  deriving DecidableEq, Repr

/-- What the request handler sends. -/
inductive Result (F : Type)
  | requestBody (body : Json F)
  | error (message : String)

inductive Response (F : Type)
  | send (status : ℕ) (result : Result F)
  | next (error : HandlerError)

/-- `clientError` and `serverError`. -/
def HandlerError.status : HandlerError → ℕ
  | httpClientError statusCode _ => statusCode
  | error _ => 500

def Response.status {F : Type} : Response F → ℕ
  | .send status _ => status
  | .next error => error.status

section

variable {F : Type}

/-- The constructor on values that may be undefined. Only strings have a `replace`. -/
def BrokerInteractionTopic.ofValues (topicPrefix : String)
    (semProtocol receiverRole type : Option (Json F)) : Option BrokerInteractionTopic :=
  match semProtocol, receiverRole, type with
  | some (.str semProtocol), some (.str receiverRole), some (.str type) =>
    some (new topicPrefix semProtocol receiverRole type)
  | _, _, _ => none

def topicOf (frame : Json F) : Option String := do
  let semanticProtocol ← get (some frame) "semanticProtocol"
  let receiver ← get (some frame) "receiver"
  let role ← get receiver "role"
  let receiverRole ← get role "name"
  let type ← get (some frame) "type"
  let topic ← BrokerInteractionTopic.ofValues "ingress" semanticProtocol receiverRole type
  return topic.getTopic

variable [FloatFormat F]

def publishMessageToBrokerTopic (c : AmqpClient) (requestBody : Json F) (topic : String) :
    Except String (Result F) × List PublishCall :=
  let msg := stringify requestBody
  match c.publish topic msg with
  | .ok _ => (.ok (.requestBody requestBody), [⟨topic, msg, true⟩])
  | .error message => (.error message, [⟨topic, msg, false⟩])

def publishInteractionToBroker (c : AmqpClient) (topic : String) (req : Json F) :
    Except String (Result F) × List PublishCall :=
  if c.isConnected then publishMessageToBrokerTopic c req topic
  else (.ok (.error "Broker connection error. Message was not published"), [])

/-- The handlers of the route. The constructor of an interaction message is given, as the
frame of what it makes of a body; it may throw, and the frame may be undefined. The text of
the error that the check has caught is left out. -/
def postInteraction (newInteractionMessage : Json F → Option (Option (Json F))) (c : AmqpClient)
    (body : Json F) : Response F × List PublishCall :=
  match newInteractionMessage body with
  | some (some frame) =>
    if validateInteractionFrame frame then
      match topicOf frame with
      | none => (.next (.error "Unspecified Error Occured"), [])
      | some topicName =>
        match publishInteractionToBroker c topicName body with
        | (.ok result, calls) => (.send 200 result, calls)
        | (.error _, calls) => (.next (.error "Internal Server Error"), calls)
    else (.next (.httpClientError 422 "Missing required fields in Interaction Frame: "), [])
  | _ => (.next (.httpClientError 422 "Missing required fields in Interaction Frame: "), [])

/-- The answer tells whether the body was published. -/
def Honest (body : Json F) (answered : Response F × List PublishCall) : Prop :=
  (answered.1.status = 200 ∧ ∃ topic, answered.2 = [⟨topic, stringify body, true⟩]) ∨
    (400 ≤ answered.1.status ∧ ∀ call ∈ answered.2, call.returned = false)

/-- The components of the topic are strings. -/
def Addressed (frame : Json F) : Prop :=
  (∃ s, field frame "semanticProtocol" = .str s) ∧
    (∃ s, field (field (field frame "receiver") "role") "name" = .str s) ∧
    ∃ s, field frame "type" = .str s

omit [FloatFormat F] in
theorem get_eq_some_some_iff {v : Option (Json F)} {name : String} {w : Json F} :
    get v name = some (some w) ↔ ∃ ms, v = some (.obj ms) ∧ ms.lookup name = some w := by
  cases v with
  | none => simp [OnboardingSkill.get]
  | some v => cases v <;> simp [OnboardingSkill.get]

omit [FloatFormat F] in
theorem BrokerInteractionTopic.ofValues_eq_some {topicPrefix : String}
    {semProtocol receiverRole type : Option (Json F)} {topic : BrokerInteractionTopic}
    (h : ofValues topicPrefix semProtocol receiverRole type = some topic) :
    (∃ s, semProtocol = some (.str s)) ∧ (∃ s, receiverRole = some (.str s)) ∧
      ∃ s, type = some (.str s) := by
  unfold ofValues at h
  split at h
  · exact ⟨⟨_, rfl⟩, ⟨_, rfl⟩, _, rfl⟩
  · cases h

omit [FloatFormat F] in
theorem field_of_lookup {ms : List (String × Json F)} {name : String} {v : Json F}
    (h : ms.lookup name = some v) : field (.obj ms) name = v := by
  simp [field, index, h]

omit [FloatFormat F] in
theorem lookup_of_field {v : Json F} {name s : String} (h : field v name = .str s) :
    ∃ ms, v = .obj ms ∧ ms.lookup name = some (.str s) := by
  obtain ⟨ms, rfl⟩ := obj_of_field h (by simp)
  exact ⟨ms, rfl, lookup_of_index h (by simp)⟩

omit [FloatFormat F] in
theorem topicOf_isSome_iff {frame : Json F} : (topicOf frame).isSome = true ↔ Addressed frame := by
  constructor
  · intro h
    obtain ⟨key, hkey⟩ := Option.isSome_iff_exists.mp h
    simp only [topicOf, Option.bind_eq_bind, Option.bind_eq_some_iff] at hkey
    obtain ⟨semanticProtocol, hsemanticProtocol, receiver, hreceiver, role, hrole, receiverRole,
      hreceiverRole, type, htype, topic, htopic, -⟩ := hkey
    obtain ⟨⟨s, rfl⟩, ⟨r, rfl⟩, t, rfl⟩ := BrokerInteractionTopic.ofValues_eq_some htopic
    obtain ⟨ms, hms, hs⟩ := get_eq_some_some_iff.mp hsemanticProtocol
    obtain rfl := Option.some.inj hms
    obtain ⟨_, hms', ht⟩ := get_eq_some_some_iff.mp htype
    obtain rfl := Json.obj.inj (Option.some.inj hms')
    obtain ⟨rs, rfl, hr⟩ := get_eq_some_some_iff.mp hreceiverRole
    obtain ⟨cs, rfl, hc⟩ := get_eq_some_some_iff.mp hrole
    obtain ⟨_, hms'', hv⟩ := get_eq_some_some_iff.mp hreceiver
    obtain rfl := Json.obj.inj (Option.some.inj hms'')
    refine ⟨⟨s, field_of_lookup hs⟩, ⟨r, ?_⟩, t, field_of_lookup ht⟩
    rw [field_of_lookup hv, field_of_lookup hc, field_of_lookup hr]
  · rintro ⟨⟨s, hs⟩, ⟨r, hr⟩, t, ht⟩
    obtain ⟨ms, rfl, hprotocol⟩ := lookup_of_field hs
    obtain ⟨_, hms, htype⟩ := lookup_of_field ht
    obtain rfl := Json.obj.inj hms
    obtain ⟨rs, hrs, hname⟩ := lookup_of_field hr
    obtain ⟨cs, hcs⟩ := obj_of_field hrs (by simp)
    rw [hcs] at hrs
    have hrole := lookup_of_index hrs (by simp)
    have hreceiver := lookup_of_index hcs (by simp)
    simp [topicOf, OnboardingSkill.get, hprotocol, htype, hreceiver, hrole, hname,
      BrokerInteractionTopic.ofValues]

/-- Where the broker is asked, the answer is right. -/
theorem honest_of_isConnected {newInteractionMessage : Json F → Option (Option (Json F))}
    {c : AmqpClient} {body frame : Json F}
    (hframe : newInteractionMessage body = some (some frame))
    (hvalid : validateInteractionFrame frame = true) (hconnected : c.isConnected = true) :
    Honest body (postInteraction newInteractionMessage c body) := by
  have hserver : 400 ≤ (HandlerError.error "Internal Server Error").status := by decide
  simp only [postInteraction, hframe, hvalid, if_true]
  cases topicOf frame with
  | none => exact .inr ⟨hserver, nofun⟩
  | some topic =>
      simp only [publishInteractionToBroker, hconnected, if_true, publishMessageToBrokerTopic]
      cases c.publish topic (stringify body) with
      | ok _ => exact .inl ⟨rfl, topic, rfl⟩
      | error message =>
          refine .inr ⟨hserver, fun call hcall => ?_⟩
          obtain rfl := List.mem_singleton.mp hcall
          rfl

/-- A body that passes the check is answered right exactly if the client is connected, or
the frame has no topic. -/
theorem honest_iff (newInteractionMessage : Json F → Option (Option (Json F))) (c : AmqpClient)
    (body frame : Json F) (hframe : newInteractionMessage body = some (some frame))
    (hvalid : validateInteractionFrame frame = true) :
    Honest body (postInteraction newInteractionMessage c body) ↔
      c.isConnected = true ∨ ¬ Addressed frame := by
  cases hconnected : c.isConnected with
  | true => exact iff_of_true (honest_of_isConnected hframe hvalid hconnected) (.inl rfl)
  | false =>
      rw [← topicOf_isSome_iff]
      simp only [postInteraction, hframe, hvalid, if_true]
      cases topicOf frame with
      | none => exact iff_of_true (.inr ⟨(by decide : 400 ≤ 500), nofun⟩) (.inr nofun)
      | some topic =>
          simp only [publishInteractionToBroker, hconnected]
          refine iff_of_false ?_ (by simp)
          rintro (⟨-, topic', hcalls⟩ | ⟨hstatus, -⟩)
          · cases hcalls
          · exact (by decide : ¬ 400 ≤ 200) hstatus

end

/-! A message for the onboarding skill, and a client that has not been connected. -/

def onboardingFrame : Json ℕ :=
  .obj
    [("conversationId", .str "conversation"),
     ("receiver", .obj [("role", .obj [("name", .str "CentralAssetRepository")])]),
     ("semanticProtocol", .str "i40:registry-semanticProtocol/onboarding"),
     ("type", .str "publishInstance")]

def onboardingBody : Json ℕ :=
  .obj [("frame", onboardingFrame), ("interactionElements", .arr [])]

def neverConnected : AmqpClient where
  brokerExchange := "amq.topic"
  connectionClosed := true
  pubChannel := none

/-- The constructor takes the members of the body. -/
def sampleInteractionMessage : Json ℕ → Option (Option (Json ℕ))
  | .obj ms => some (ms.lookup "frame")
  | _ => some none

theorem honest_iff_neverConnected :
    ¬ Honest onboardingBody
      (postInteraction sampleInteractionMessage neverConnected onboardingBody) := by
  rw [honest_iff sampleInteractionMessage neverConnected onboardingBody onboardingFrame rfl
    (by decide)]
  rintro (hconnected | hunaddressed)
  · cases hconnected
  · exact hunaddressed ⟨⟨_, rfl⟩, ⟨_, rfl⟩, _, rfl⟩

/-- The status is 200, and nothing was published. -/
theorem not_honest_neverConnected :
    ¬ ∀ (newInteractionMessage : Json ℕ → Option (Option (Json ℕ))) (c : AmqpClient)
      (body frame : Json ℕ), newInteractionMessage body = some (some frame) →
      validateInteractionFrame frame = true →
      Honest body (postInteraction newInteractionMessage c body) := by
  intro h
  have hhonest := h sampleInteractionMessage neverConnected onboardingBody onboardingFrame rfl
    (by decide)
  have hanswer : (postInteraction sampleInteractionMessage neverConnected onboardingBody).1.status =
      200 ∧ (postInteraction sampleInteractionMessage neverConnected onboardingBody).2 = [] :=
    ⟨rfl, rfl⟩
  obtain ⟨hstatus, hcalls⟩ := hanswer
  rcases hhonest with ⟨-, topic, hcalls'⟩ | ⟨hstatus', -⟩
  · rw [hcalls] at hcalls'
    cases hcalls'
  · rw [hstatus] at hstatus'
    exact absurd hstatus' (by decide)

end I40Aas.HttpsIngress
