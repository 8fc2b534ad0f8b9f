import I40Aas.EndpointResolver.ReceiverRewriting
import I40Aas.HttpsEgress.Interpreter

/-!
The hand-over of the credentials of an endpoint from the resolver to the https
egress. The egress takes an empty string for no value, but the resolver prints null
and absent values as the text `<nil>`, so a request keeps to what is registered when
both values are strings or one of them is the empty string
(`post_follows_endpoint_iff`).
-/

namespace I40Aas.HttpsEgress

open I40Aas.Lib I40Aas.Lib.Json I40Aas.Interaction I40Aas.EndpointResolver

/-! Reading a resolver message. -/

/-- What the egress makes of user and password of a resolver message. -/
def authOf : Option String → Option String → Option (Value × Value)
  | some user, some password =>
    if user = "" ∨ password = "" then none else some (.str user, .str password)
  | _, _ => none

/-- The messages that the egress logs on the way to the request do not keep it from it. -/
structure Logged (js : Engine) (m : ResolverMsg) : Prop where
  message : js.stringifies m.json = true
  body : ∀ body, jsonParse m.egressPayload = some body → js.stringifies body = true

section

variable {js : Engine}

theorem jsonParse_payload (m : ResolverMsg) : jsonParse m.payload = some m.json :=
  read_text _

theorem truthy_str (s : String) : truthy js (some (.str s)) = decide (s ≠ "") := rfl

theorem property_receiverURL (m : ResolverMsg) :
    property "ReceiverURL" m.json = some (.str m.receiverURL) := rfl

theorem property_receiverType (m : ResolverMsg) :
    property "ReceiverType" m.json = some (.str m.receiverType) := rfl

theorem property_receiverTLSCert (m : ResolverMsg) :
    property "ReceiverTLSCert" m.json = some (stringPointer m.receiverTLSCert) := rfl

theorem property_egressPayload (m : ResolverMsg) :
    property "EgressPayload" m.json =
      some (.str (String.ofList (Base64.encode m.egressPayload))) := rfl

theorem property_receiverUser (m : ResolverMsg) :
    property "ReceiverUser" m.json = some (stringPointer m.receiverUser) := rfl

theorem property_receiverPassword (m : ResolverMsg) :
    property "ReceiverPassword" m.json = some (stringPointer m.receiverPassword) := rfl

theorem orUndefined_str (s : String) :
    orUndefined js (some (.str s)) = if s = "" then none else some (.str s) := by
  by_cases h : s = "" <;> simp [orUndefined, truthy_str, h]

theorem logged_iff {m : ResolverMsg} {body : Value} (hpayload : read m.egressPayload = some body) :
    Logged js m ↔ js.stringifies m.json = true ∧ js.stringifies body = true := by
  constructor
  · intro h
    exact ⟨h.message, h.body body hpayload⟩
  · rintro ⟨hmessage, hbody⟩
    refine ⟨hmessage, fun body' hbody' => ?_⟩
    obtain rfl : body = body' := Option.some.inj (hpayload.symm.trans hbody')
    exact hbody

theorem postRequest_of_stringPointer (url : String) (body : Value) (user password : Option String)
    (tlsCert : Option Value) :
    postRequest js (.str url) body (orUndefined js (some (stringPointer user)))
        (orUndefined js (some (stringPointer password))) tlsCert =
      if js.stringifies body = true then
        some ⟨.str url, body, authOf user password, tlsCert⟩
      else none := by
  have hnone : orUndefined js (some (stringPointer none)) = none := rfl
  cases user with
  | none => rfl
  | some user =>
      rw [stringPointer, orUndefined_str]
      cases password with
      | none =>
          rw [hnone]
          split <;> rfl
      | some password =>
          rw [stringPointer, orUndefined_str]
          by_cases h : user = ""
          · simp [postRequest, authOf, h]
          · by_cases h' : password = "" <;> simp [postRequest, authOf, truthy_str, h, h']

/-- The request for a resolver message with an object as payload, unless its address is empty. -/
theorem receive_eq {m : ResolverMsg} {ms : List (String × Value)}
    (hpayload : read m.egressPayload = some (.obj ms)) : receive js m.payload =
      if m.receiverURL ≠ "" ∧ js.stringifies m.json = true ∧ js.stringifies (.obj ms) = true then
        some
          { url := .str m.receiverURL
            body := .obj ms
            auth := authOf m.receiverUser m.receiverPassword
            ca := if m.receiverType = "https" then
                orUndefined js (some (stringPointer m.receiverTLSCert))
              else none }
      else none := by
  have hbody : jsonParse (Base64.decode
      (String.ofList (Base64.encode m.egressPayload)).toList) = some (.obj ms) := by
    rw [String.toList_ofList, Base64.decode_encode]
    exact hpayload
  have htrue : truthy js (some (.obj ms)) = true := rfl
  by_cases hurl : m.receiverURL = ""
  · simp [receive, validateEssentialResolverElements, jsonParse_payload, property_receiverURL,
      truthy_str, hurl]
  · have hmessage : validateEssentialResolverElements js m.payload = some m.json := by
      simp [validateEssentialResolverElements, jsonParse_payload, property_receiverURL,
        truthy_str, hurl]
    rw [receive, hmessage, Option.bind_eq_bind, Option.bind_some]
    simp only [handleResolverMessage, property_receiverURL, property_egressPayload,
      property_receiverUser, property_receiverPassword, property_receiverType,
      property_receiverTLSCert, orUndefined_str, if_neg hurl, Option.bind_eq_bind,
      Option.bind_some, hbody, htrue, if_true, postRequest_of_stringPointer]
    split
    · rename_i hlogs
      by_cases hbody : js.stringifies (.obj ms) = true
      · simp [hurl, hlogs, hbody]
      · simp [hlogs, hbody]
    · rename_i hlogs
      rw [if_neg fun hmade => hlogs hmade.2.1]

end

/-! Payloads. -/

variable {F : Type} [FloatFormat F]

theorem read_of_message {pb : Jsonpb} {msg : List UInt8} {iMsg : InteractionMessage}
    (h : newInteractionMessage F pb (.bytes msg) = .ok iMsg) :
    ∃ ms, read msg = some (.obj ms) := by
  obtain ⟨dat, -, -, -, hdat, -, -, -, -⟩ := fromRawJSON_ok h
  obtain ⟨t, hread, -, hdecode⟩ := (unmarshal_eq_some_iff _ _).1 hdat
  cases t with
  | obj ms => exact ⟨ms, hread⟩
  | num l => simp [decode] at hdecode
  | arr es => simp [decode] at hdecode
  | _ => cases hdecode

theorem read_rewriteReceiver {env : Env F} (hpb : env.jsonpb.RoundTrips F)
    {msg payload : List UInt8} {aasDescriptor : List (String × Json F)}
    (h : rewriteReceiver env msg aasDescriptor = .ok payload) :
    ∃ ms, read payload = some (.obj ms) := by
  obtain ⟨_, _, _, _, _, -, hmsg, -, -, hframe, rfl⟩ := rewriteReceiver_ok h
  obtain ⟨-, t, -, -, hread, -⟩ := hpb _ _ hframe
  obtain ⟨es, helements, -⟩ := isArrayText_of_newInteractionMessage hmsg
  exact ⟨_, read_concatMessage hread helements⟩

theorem read_egressPayload {env : Env F} (hpb : env.jsonpb.RoundTrips F)
    {msg payload : List UInt8} {iMsg : InteractionMessage} {frame : Frame}
    {aasDescriptor : List (String × Json F)}
    (hmsg : newInteractionMessage F env.jsonpb (.bytes msg) = .ok iMsg)
    (h : egressPayload env msg frame aasDescriptor = .ok payload) :
    ∃ ms, read payload = some (.obj ms) := by
  unfold egressPayload at h
  split at h
  next =>
    split at h
    next => cases h; exact read_of_message hmsg
    next => exact read_rewriteReceiver hpb h
  next => cases h

/-! The endpoint as it is registered. -/

/-- A string, null or absent. -/
def IsOptionalString (v : Json F) : Prop :=
  v = .null ∨ ∃ s, v = .str s

def registered (endpoint : List (String × Json F)) (name : String) : Option String :=
  match index endpoint name with
  | .str s => if s = "" then none else some s
  | _ => none

def registeredAuth (endpoint : List (String × Json F)) : Option (Value × Value) := do
  let user ← registered endpoint "user"
  let password ← registered endpoint "password"
  return (.str user, .str password)

/-- The request goes to the address, with the credentials that are registered. An empty address
is not posted to. -/
structure FollowsEndpoint (js : Engine) (endpoint : List (String × Json F))
    (address : String) (m : ResolverMsg) : Prop where
  posted : address ≠ "" → Logged js m → ∃ post, receive js m.payload = some post
  url : ∀ post, receive js m.payload = some post → post.url = .str address
  auth : ∀ post, receive js m.payload = some post → post.auth = registeredAuth endpoint

/-- No value that is missing is printed where it would be sent. -/
def KeepsCredentials (endpoint : List (String × Json F)) : Prop :=
  (∃ user password, index endpoint "user" = .str user ∧
    index endpoint "password" = .str password) ∨
  index endpoint "user" = .str "" ∨ index endpoint "password" = .str ""

omit [FloatFormat F] in
theorem registeredAuth_eq_iff {sprintNumber : F → String}
    {endpoint : List (String × Json F)}
    (huser : IsOptionalString (index endpoint "user"))
    (hpassword : IsOptionalString (index endpoint "password")) :
    authOf (some (sprint sprintNumber (index endpoint "user")))
        (some (sprint sprintNumber (index endpoint "password"))) =
      registeredAuth endpoint ↔ KeepsCredentials endpoint := by
  have hnil : ("<nil>" : String) ≠ "" := by decide
  cases huser with
  | inl hu =>
      cases hpassword with
      | inl hp =>
          simp [authOf, registeredAuth, registered, KeepsCredentials, hu, hp, sprint]
      | inr hp =>
          obtain ⟨password, hp⟩ := hp
          by_cases h : password = "" <;>
            simp [authOf, registeredAuth, registered, KeepsCredentials, hu, hp, sprint, h]
  | inr hu =>
      obtain ⟨user, hu⟩ := hu
      cases hpassword with
      | inl hp =>
          by_cases h : user = "" <;>
            simp [authOf, registeredAuth, registered, KeepsCredentials, hu, hp, sprint, h]
      | inr hp =>
          obtain ⟨password, hp⟩ := hp
          by_cases h : user = "" <;> by_cases h' : password = "" <;>
            simp [authOf, registeredAuth, registered, KeepsCredentials, hu, hp, sprint, h, h']

omit [FloatFormat F] in
theorem followsEndpoint_of_none {js : Engine} {endpoint : List (String × Json F)}
    {address : String} {m : ResolverMsg}
    (hposted : address ≠ "" → Logged js m → ∃ post, receive js m.payload = some post)
    (h : receive js m.payload = none) : FollowsEndpoint js endpoint address m where
  posted := hposted
  url := by
    rw [h]
    nofun
  auth := by
    rw [h]
    nofun

omit [FloatFormat F] in
theorem followsEndpoint_iff {js : Engine} {env : Env F}
    {endpoint : List (String × Json F)} {payload : List UInt8}
    {ms : List (String × Value)} (hread : read payload = some (.obj ms)) {address : String}
    (haddress : index endpoint "address" = .str address)
    (huser : IsOptionalString (index endpoint "user"))
    (hpassword : IsOptionalString (index endpoint "password")) :
    FollowsEndpoint js endpoint address (resolverMsg env endpoint payload) ↔
      address = "" ∨ ¬ Logged js (resolverMsg env endpoint payload) ∨
        KeepsCredentials endpoint := by
  have hurl : (resolverMsg env endpoint payload).receiverURL = address := by
    simp [resolverMsg, haddress, sprint]
  have hreceive : receive js (resolverMsg env endpoint payload).payload = _ := receive_eq hread
  have hlogged : Logged js (resolverMsg env endpoint payload) ↔ _ := logged_iff hread
  rw [hurl] at hreceive
  by_cases hempty : address = ""
  -- nothing is posted
  · rw [if_neg fun hmade => hmade.1 hempty] at hreceive
    exact iff_of_true (followsEndpoint_of_none (fun h => absurd hempty h) hreceive) (.inl hempty)
  · by_cases hlogs : Logged js (resolverMsg env endpoint payload)
    · rw [if_pos ⟨hempty, hlogged.mp hlogs⟩] at hreceive
      have hkeeps := @registeredAuth_eq_iff F env.sprintNumber endpoint huser hpassword
      rw [or_iff_right hempty, or_iff_right (not_not_intro hlogs), ← hkeeps]
      constructor
      · intro h
        exact h.auth _ hreceive
      · intro hsame
        refine ⟨fun _ _ => ⟨_, hreceive⟩, fun post hpost => ?_, fun post hpost => ?_⟩
        · obtain rfl := Option.some.inj (hreceive.symm.trans hpost)
          rfl
        · obtain rfl := Option.some.inj (hreceive.symm.trans hpost)
          exact hsame
    · rw [if_neg fun hmade => hlogs (hlogged.mpr hmade.2)] at hreceive
      exact iff_of_true (followsEndpoint_of_none (fun _ h => absurd h hlogs) hreceive)
        (.inr (.inl hlogs))

/-- Every message that is published for an http or https endpoint. -/
theorem post_follows_endpoint_iff {js : Engine} {env : Env F}
    (hpb : env.jsonpb.RoundTrips F) {msg : List UInt8} {p : Publication F}
    (hp : p ∈ (processGenericEgressMsg env msg).1) {address rType : String}
    (haddress : index p.endpoint "address" = .str address)
    (hrType : index p.endpoint "type" = .str rType) (hhttp : rType = "http" ∨ rType = "https")
    (huser : IsOptionalString (index p.endpoint "user"))
    (hpassword : IsOptionalString (index p.endpoint "password")) :
    p.routingKey = "egress.http" ∧
      (FollowsEndpoint js p.endpoint address p.resolverMsg ↔
        address = "" ∨ ¬ Logged js p.resolverMsg ∨ KeepsCredentials p.endpoint) := by
  obtain ⟨iMsg, frame, hmsg, -, hpublished⟩ := publishedFor_of_mem hp
  obtain ⟨ms, hread⟩ := read_egressPayload hpb hmsg hpublished.payload
  constructor
  · have hkey := hpublished.routingKey
    have htype : p.resolverMsg.receiverType = rType := by
      rw [hpublished.resolverMsg]
      simp [resolverMsg, hrType, sprint]
    rw [htype] at hkey
    rcases hhttp with rfl | rfl
    · exact (Except.ok.inj hkey).symm
    · exact (Except.ok.inj hkey).symm
  · rw [hpublished.resolverMsg]
    exact followsEndpoint_iff hread haddress huser hpassword

/-! The shell behind `shellEnv`, with an account at its endpoint. -/

def accountEndpoint : List (String × Json Digit) :=
  [("address", .str "https://shell"), ("password", .str "p"), ("type", .str "https"),
   ("user", .str "u")]

def accountShell : List (String × Json Digit) :=
  [("descriptor", .obj [("endpoints", .arr [.obj accountEndpoint])]),
   ("identification", .obj [("id", .str "urn:a"), ("idType", .str "IRI")])]

def accountEnv : Env Digit :=
  { shellEnv "urn:a" "urn:a" with
    queryEndpointRegistry := fun _ => .ok (marshal (.arr [.obj accountShell])) }

def accountPublication : Publication Digit :=
  { aasDescriptor := accountShell
    endpoint := accountEndpoint
    routingKey := "egress.http"
    resolverMsg := resolverMsg accountEnv accountEndpoint
      (shellPublication "urn:a" "urn:a").resolverMsg.egressPayload }

/-- Every value can be logged. -/
def sampleEngine : Engine where
  isZero _ := false
  stringifies _ := true

theorem post_follows_endpoint_iff_account :
    accountPublication.routingKey = "egress.http" ∧
      (FollowsEndpoint sampleEngine accountEndpoint "https://shell"
          accountPublication.resolverMsg ↔
        "https://shell" = "" ∨ ¬ Logged sampleEngine accountPublication.resolverMsg ∨
          KeepsCredentials accountEndpoint) := by
  have hpb : (Jsonpb.ofTable Digit (shellFrames "urn:a")).RoundTrips Digit :=
    Jsonpb.ofTable_roundTrips (by decide +kernel)
  have hp : accountPublication ∈ (processGenericEgressMsg accountEnv roleMessage).1 := by
    decide +kernel
  exact post_follows_endpoint_iff hpb hp rfl rfl (.inr rfl) (.inr ⟨"u", rfl⟩)
    (.inr ⟨"p", rfl⟩)

/-- Without an account the request is sent with the user and the password `<nil>`. -/
theorem not_post_follows_endpoint_nil :
    shellPublication "urn:a" "urn:a" ∈
      (processGenericEgressMsg (shellEnv "urn:a" "urn:a") roleMessage).1 ∧
    (∃ post, receive sampleEngine (shellPublication "urn:a" "urn:a").resolverMsg.payload =
      some post ∧ post.auth = some (.str "<nil>", .str "<nil>")) ∧
    ¬ FollowsEndpoint sampleEngine shellEndpoint "https://shell"
      (shellPublication "urn:a" "urn:a").resolverMsg := by
  have hread : read (shellPublication "urn:a" "urn:a").resolverMsg.egressPayload = some _ :=
    read_concatMessage (read_text _) (read_text _)
  have hurl : (shellPublication "urn:a" "urn:a").resolverMsg.receiverURL ≠ "" := by decide
  have hpost : receive sampleEngine (shellPublication "urn:a" "urn:a").resolverMsg.payload = _ :=
    receive_eq hread
  rw [if_pos ⟨hurl, rfl, rfl⟩] at hpost
  refine ⟨by decide +kernel, ⟨_, hpost, rfl⟩, ?_⟩
  intro h
  have hnone : registeredAuth shellEndpoint = none := rfl
  have hauth := h.auth _ hpost
  rw [hnone] at hauth
  cases hauth

end I40Aas.HttpsEgress
