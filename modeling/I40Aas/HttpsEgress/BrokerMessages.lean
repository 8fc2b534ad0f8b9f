import I40Aas.Lib.JavaScript
import I40Aas.HttpsEgress.Interpreter

/-!
Any text from the broker, and what the https egress posts for it. The message is logged before
the `catch` of `receive`, where all other failures end. The address, the user and the body go
into a log line before the request is made, and the certificate and the type are compared with
texts. A value that cannot be written or converted to a string throws there, and nothing is
posted.
-/

namespace I40Aas.HttpsEgress.BrokerMessageInterpreter

open I40Aas.Lib I40Aas.Lib.Json I40Aas.Lib.JavaScript

/-- What is not in the source. -/
structure Runtime extends Engine where
  numberToString : Literal → String
  /-- Whether these elements can be joined to a string; if they are nested deeper than the call
  stack, this throws as well. -/
  joins : List Value → Bool
  /-- `Buffer.from(value, 'base64')`, which throws for what it does not accept. -/
  bufferFrom : Option Value → Option (List UInt8)

/-- The requests that are handed over, and whether the promise is rejected. -/
structure Outcome where
  posts : List Post
  rejected : Bool
  deriving DecidableEq

section

variable (r : Runtime)

def validateEssentialResolverElements (msg : List UInt8) : Option Value := do
  let resolverMessage ← JavaScript.jsonParse msg
  if !toBoolean r.isZero (some resolverMessage) then none
  else
    let receiverURL ← getV (some resolverMessage) "ReceiverURL"
    if !toBoolean r.isZero receiverURL then none else some resolverMessage

/-- The call stack is deep enough to convert the value to a string. -/
def fits : Option Value → Bool
  | some (.arr es) => r.joins es
  | _ => true

/-- The value can be converted to a string. -/
def printable (v : Option Value) : Bool :=
  v.all convertible && fits r v

/-- What is added to a text. -/
def added (v : Option Value) : Option String :=
  if fits r v then
    match v with
    | none => some "undefined"
    | some v => toText r.numberToString v
  else none

/-- `v == text`. -/
def equals (v : Option Value) (text : String) : Option Bool :=
  if fits r v then looseEq r.isZero r.numberToString v text else none

/-- The arguments of `Axios.post`, after the log line. -/
def postRequest (baseUrl body : Value) (user password tlsCert : Option Value) : Option Post := do
  let _ ← added r (some baseUrl)
  let _ ← added r user
  if !r.stringifies body then none
  else
    return {
      url := baseUrl
      body := body
      auth :=
        match user, password with
        | some user, some password =>
            if toBoolean r.isZero (some user) && toBoolean r.isZero (some password) then
              some (user, password)
            else none
        | _, _ => none
      ca := tlsCert }

/-- `value ? value : undefined`. -/
def orUndefined (value : Option Value) : Option Value :=
  if toBoolean r.isZero value then value else none

/-- The certificate, unless it is deleted for being empty. -/
def receiverTLSCert (resolverMessage : Value) : Option (Option Value) := do
  let tlsCert ← getV (some resolverMessage) "ReceiverTLSCert"
  if (← equals r tlsCert "") then return none else return tlsCert

def egressCert (resolverMessage : Value) : Option (Option Value) := do
  let tlsCert ← receiverTLSCert r resolverMessage
  if toBoolean r.isZero tlsCert then
    let receiverType ← getV (some resolverMessage) "ReceiverType"
    if (← equals r receiverType "https") then return tlsCert
    else return none
  else return none

/-- The payload, if it is there: decoded and parsed. -/
def interactionMessage (resolverMessage : Value) : Option Value := do
  let egressPayload ← getV (some resolverMessage) "EgressPayload"
  JavaScript.jsonParse (← r.bufferFrom egressPayload)

/-- The request, if there is one to make, unless something throws before. -/
def request (resolverMessage : Value) : Option (Option Post) := do
  let receiverURL ← getV (some resolverMessage) "ReceiverURL"
  match orUndefined r receiverURL with
  | none => return none
  | some receiverURL =>
      let _ ← added r (some receiverURL)
      let body ← interactionMessage r resolverMessage
      if !toBoolean r.isZero (some body) then return none
      else
        let tlsCert ← egressCert r resolverMessage
        let user ← getV (some resolverMessage) "ReceiverUser"
        let password ← getV (some resolverMessage) "ReceiverPassword"
        return some (← postRequest r receiverURL body (orUndefined r user)
          (orUndefined r password) tlsCert)

/-- `answered`: the request has succeeded. -/
def handleResolverMessage (answered : Bool) (resolverMessage : Value) : Outcome :=
  match request r resolverMessage with
  | none => ⟨[], true⟩
  | some none => ⟨[], false⟩
  | some (some post) => ⟨[post], !answered⟩

/-- A rejection of `handleResolverMessage` is caught and logged. -/
def receive (answered : Bool) (msg : List UInt8) : Outcome :=
  match validateEssentialResolverElements r msg with
  | none => ⟨[], false⟩
  | some message =>
      if r.stringifies message then
        { handleResolverMessage r answered message with rejected := false }
      else ⟨[], true⟩

end

/-- Address and body of the request that a text asks for. -/
def asksFor (r : Runtime) (msg : List UInt8) : Option (Value × Value) := do
  let resolverMessage ← JavaScript.jsonParse msg
  let receiverURL ← property "ReceiverURL" resolverMessage
  let body ← JavaScript.jsonParse (← r.bufferFrom (property "EgressPayload" resolverMessage))
  if toBoolean r.isZero (some receiverURL) && toBoolean r.isZero (some body) then
    some (receiverURL, body)
  else none

/-- The promise is not rejected, and the one request that the text asks for is made. -/
structure Forwards (r : Runtime) (msg : List UInt8) (outcome : Outcome) : Prop where
  resolved : outcome.rejected = false
  posts : (outcome.posts.map fun post => (post.url, post.body)) = (asksFor r msg).toList

/-- What is logged or compared on the way to the request can be converted to a string: the
address, the user, the certificate, and the type if there is a certificate. -/
structure Printable (r : Runtime) (resolverMessage : Value) : Prop where
  receiverURL : printable r (property "ReceiverURL" resolverMessage) = true
  receiverUser : printable r (property "ReceiverUser" resolverMessage) = true
  tlsCert : printable r (property "ReceiverTLSCert" resolverMessage) = true
  receiverType : toBoolean r.isZero (property "ReceiverTLSCert" resolverMessage) = true →
    equals r (property "ReceiverTLSCert" resolverMessage) "" = some false →
    printable r (property "ReceiverType" resolverMessage) = true

/-- A message with an address can be written for the log, and so can the body of a request. -/
structure Loggable (r : Runtime) (msg : List UInt8) (resolverMessage : Value) : Prop where
  message : toBoolean r.isZero (property "ReceiverURL" resolverMessage) = true →
    r.stringifies resolverMessage = true
  body : ∀ url body, asksFor r msg = some (url, body) → r.stringifies body = true

section

variable {r : Runtime} {ms : List (String × Value)}

theorem getV_obj (ms : List (String × Value)) (name : String) :
    getV (some (.obj ms)) name = some (property name (.obj ms)) := rfl

theorem isSome_added (v : Option Value) : (added r v).isSome = printable r v := by
  unfold added printable
  cases fits r v with
  | false => simp
  | true =>
      cases v with
      | none => rfl
      | some v => simpa using isSome_toText r.numberToString v

theorem isSome_equals (v : Option Value) (text : String) :
    (equals r v text).isSome = printable r v := by
  unfold equals printable
  cases fits r v with
  | false => simp
  | true => simpa using isSome_looseEq r.isZero r.numberToString v text

/-- What counts as false can be converted. -/
theorem printable_orUndefined (v : Option Value) :
    printable r (orUndefined r v) = printable r v := by
  unfold orUndefined
  split
  · rfl
  · rename_i hfalse
    match v with
    | none | some .null | some (.bool _) | some (.num _) | some (.str _) => rfl
    | some (.arr _) | some (.obj _) => exact absurd rfl hfalse

theorem isSome_egressCert_iff : (egressCert r (.obj ms)).isSome = true ↔
    printable r (property "ReceiverTLSCert" (.obj ms)) = true ∧
      (toBoolean r.isZero (property "ReceiverTLSCert" (.obj ms)) = true →
        equals r (property "ReceiverTLSCert" (.obj ms)) "" = some false →
        printable r (property "ReceiverType" (.obj ms)) = true) := by
  rw [← isSome_equals _ "", ← isSome_equals (property "ReceiverType" (.obj ms)) "https"]
  simp only [egressCert, receiverTLSCert, getV_obj, Option.bind_eq_bind, Option.bind_some]
  cases equals r (property "ReceiverTLSCert" (.obj ms)) "" with
  | none => simp
  | some isEmpty =>
      cases isEmpty with
      | true => simp [toBoolean]
      | false =>
          cases hcert : toBoolean r.isZero (property "ReceiverTLSCert" (.obj ms)) with
          | false => simp [hcert]
          | true =>
              cases equals r (property "ReceiverType" (.obj ms)) "https" with
              | none => simp [hcert]
              | some isHttps => cases isHttps <;> simp [hcert]

/-- The one way to a request is by an address and a payload that count as true. -/
theorem request_obj (ms : List (String × Value)) : request r (.obj ms) =
    (orUndefined r (property "ReceiverURL" (.obj ms))).elim (some none) fun receiverURL => do
      let _ ← added r (some receiverURL)
      let body ← interactionMessage r (.obj ms)
      if !toBoolean r.isZero (some body) then return none
      else
        let tlsCert ← egressCert r (.obj ms)
        return some (← postRequest r receiverURL body
          (orUndefined r (property "ReceiverUser" (.obj ms)))
          (orUndefined r (property "ReceiverPassword" (.obj ms))) tlsCert) := by
  simp only [request, getV_obj, Option.bind_eq_bind, Option.bind_some]
  cases orUndefined r (property "ReceiverURL" (.obj ms)) <;> rfl

theorem postRequest_eq {url body : Value} {user password cert : Option Value}
    {post : Post} (h : postRequest r url body user password cert = some post) :
    (post.url, post.body) = (url, body) := by
  simp only [postRequest, Option.bind_eq_bind, Option.bind_eq_some_iff] at h
  obtain ⟨_, -, _, -, hpost⟩ := h
  split at hpost
  · cases hpost
  · obtain rfl := Option.some.inj hpost
    rfl

theorem isSome_postRequest {url body : Value} {user password cert : Option Value} :
    (postRequest r url body user password cert).isSome =
      (printable r (some url) && printable r user && r.stringifies body) := by
  rw [← isSome_added (some url), ← isSome_added user]
  cases hurl : added r (some url) with
  | none => simp [postRequest, hurl]
  | some _ =>
      cases huser : added r user with
      | none => simp [postRequest, hurl, huser]
      | some _ => cases hbody : r.stringifies body <;> simp [postRequest, hurl, huser, hbody]

theorem orUndefined_eq_some_iff {v : Option Value} {value : Value} :
    orUndefined r v = some value ↔ v = some value ∧ toBoolean r.isZero (some value) = true := by
  unfold orUndefined
  constructor
  · intro h
    split at h
    · rename_i htrue
      obtain rfl := h
      exact ⟨rfl, htrue⟩
    · cases h
  · rintro ⟨rfl, htrue⟩
    exact if_pos htrue

/-- A text asks for a request with what the interpreter takes out of its object. -/
theorem asksFor_eq_some_iff {msg : List UInt8} {url body : Value}
    (hmsg : JavaScript.jsonParse msg = some (.obj ms)) : asksFor r msg = some (url, body) ↔
    orUndefined r (property "ReceiverURL" (.obj ms)) = some url ∧
      interactionMessage r (.obj ms) = some body ∧ toBoolean r.isZero (some body) = true := by
  simp only [asksFor, hmsg, interactionMessage, getV_obj, Option.bind_eq_bind, Option.bind_some,
    orUndefined_eq_some_iff, Option.bind_eq_some_iff, Option.ite_none_right_eq_some,
    Bool.and_eq_true, Option.some.injEq, Prod.mk.injEq]
  constructor
  · rintro ⟨_, hurl, payload, hpayload, _, hbody, ⟨htrue, hbodyTrue⟩, rfl, rfl⟩
    exact ⟨⟨hurl, htrue⟩, ⟨payload, hpayload, hbody⟩, hbodyTrue⟩
  · rintro ⟨⟨hurl, htrue⟩, ⟨payload, hpayload, hbody⟩, hbodyTrue⟩
    exact ⟨url, hurl, payload, hpayload, body, hbody, ⟨htrue, hbodyTrue⟩, rfl, rfl⟩

/-- A request that is due is made, or something has thrown before. -/
theorem request_of_asksFor {msg : List UInt8} {url body : Value}
    (hmsg : JavaScript.jsonParse msg = some (.obj ms))
    (h : asksFor r msg = some (url, body)) :
    (request r (.obj ms) = none ∧ ¬ (Printable r (.obj ms) ∧ r.stringifies body = true)) ∨
      ∃ post, request r (.obj ms) = some (some post) ∧ (post.url, post.body) = (url, body) ∧
        Printable r (.obj ms) ∧ r.stringifies body = true := by
  obtain ⟨hurl, hbody, hbodyTrue⟩ := (asksFor_eq_some_iff hmsg).mp h
  have hproperty := (orUndefined_eq_some_iff.mp hurl).1
  rw [request_obj, hurl, Option.elim_some]
  cases hadded : added r (some url) with
  | none =>
      refine .inl ⟨rfl, fun ⟨hprintable, _⟩ => ?_⟩
      have hconvertible := hprintable.receiverURL
      rw [hproperty, ← isSome_added, hadded] at hconvertible
      cases hconvertible
  | some _ =>
      cases hcert : egressCert r (.obj ms) with
      | none =>
          refine .inl ⟨by simp [hbody, hbodyTrue], fun ⟨hprintable, _⟩ => ?_⟩
          have hsome := isSome_egressCert_iff.mpr ⟨hprintable.tlsCert, hprintable.receiverType⟩
          rw [hcert] at hsome
          cases hsome
      | some tlsCert =>
          have hsome := isSome_egressCert_iff.mp (Option.isSome_of_eq_some hcert)
          cases hpost : postRequest r url body (orUndefined r (property "ReceiverUser" (.obj ms)))
              (orUndefined r (property "ReceiverPassword" (.obj ms))) tlsCert with
          | none =>
              refine .inl ⟨by simp [hbody, hbodyTrue, hpost], fun ⟨hprintable, hlogged⟩ => ?_⟩
              have hpostSome := congrArg Option.isSome hpost
              rw [isSome_postRequest, printable_orUndefined, ← hproperty, hprintable.receiverURL,
                hprintable.receiverUser, hlogged] at hpostSome
              cases hpostSome
          | some post =>
              have hpostSome := Option.isSome_of_eq_some hpost
              rw [isSome_postRequest, Bool.and_eq_true, Bool.and_eq_true, printable_orUndefined,
                ← hproperty] at hpostSome
              obtain ⟨⟨hurlSome, huserSome⟩, hlogged⟩ := hpostSome
              exact .inr ⟨post, by simp [hbody, hbodyTrue, hpost], postRequest_eq hpost,
                ⟨hurlSome, huserSome, hsome.1, hsome.2⟩, hlogged⟩

/-- Nothing is made that the text does not ask for. -/
theorem request_of_asksFor_eq_none {msg : List UInt8}
    (hmsg : JavaScript.jsonParse msg = some (.obj ms)) (h : asksFor r msg = none) :
    request r (.obj ms) = none ∨ request r (.obj ms) = some none := by
  rw [request_obj]
  cases hurl : orUndefined r (property "ReceiverURL" (.obj ms)) with
  | none => exact .inr rfl
  | some url =>
      rw [Option.elim_some]
      cases added r (some url) with
      | none => exact .inl rfl
      | some _ =>
          cases hbody : interactionMessage r (.obj ms) with
          | none => exact .inl rfl
          | some body =>
              cases hfalse : toBoolean r.isZero (some body) with
              | false => exact .inr (by simp [hfalse])
              | true =>
                  have hasks := (asksFor_eq_some_iff hmsg).mpr ⟨hurl, hbody, hfalse⟩
                  rw [h] at hasks
                  cases hasks

/-- Only an object has a property to ask with. -/
theorem exists_obj_of_asksFor {msg : List UInt8} {m : Value} {request : Value × Value}
    (hmsg : JavaScript.jsonParse msg = some m) (h : asksFor r msg = some request) :
    ∃ ms, m = .obj ms := by
  cases m with
  | obj ms => exact ⟨ms, rfl⟩
  | _ =>
      rw [asksFor, hmsg] at h
      cases h

/-- Reading the address of what is not an object gives undefined, or throws. -/
theorem validateEssentialResolverElements_eq (msg : List UInt8) :
    validateEssentialResolverElements r msg = (JavaScript.jsonParse msg).bind fun m =>
      if toBoolean r.isZero (property "ReceiverURL" m) then some m else none := by
  unfold validateEssentialResolverElements
  cases JavaScript.jsonParse msg with
  | none => rfl
  | some m =>
      simp only [Option.bind_eq_bind, Option.bind_some]
      cases m with
      | obj ms =>
          rw [getV_obj, Option.bind_some]
          cases toBoolean r.isZero (property "ReceiverURL" (.obj ms)) <;> rfl
      | _ =>
          split
          · rfl
          · rfl

/-- What gets through the validation is the object of the text. -/
theorem validateEssentialResolverElements_cases (msg : List UInt8) :
    validateEssentialResolverElements r msg = none ∨ ∃ ms,
      JavaScript.jsonParse msg = some (.obj ms) ∧
        validateEssentialResolverElements r msg = some (.obj ms) := by
  rw [validateEssentialResolverElements_eq]
  cases JavaScript.jsonParse msg with
  | none => exact .inl rfl
  | some m =>
      rw [Option.bind_some]
      split
      · rename_i htrue
        cases m with
        | obj ms => exact .inr ⟨ms, rfl, rfl⟩
        | _ => cases htrue
      · exact .inl rfl

/-- What asks for a request gets through the validation. -/
theorem validateEssentialResolverElements_of_asksFor {msg : List UInt8} {url body : Value}
    (hmsg : JavaScript.jsonParse msg = some (.obj ms)) (h : asksFor r msg = some (url, body)) :
    validateEssentialResolverElements r msg = some (.obj ms) := by
  obtain ⟨hurl, -, -⟩ := (asksFor_eq_some_iff hmsg).mp h
  obtain ⟨hproperty, htrue⟩ := orUndefined_eq_some_iff.mp hurl
  rw [validateEssentialResolverElements_eq, hmsg, Option.bind_some, hproperty, if_pos htrue]

theorem receive_of_validated {msg : List UInt8} {m : Value} (answered : Bool)
    (h : validateEssentialResolverElements r msg = some m) : receive r answered msg =
      if r.stringifies m then ⟨((request r m).bind id).toList, false⟩ else ⟨[], true⟩ := by
  rw [receive, h]
  simp only [handleResolverMessage]
  cases request r m with
  | none => rfl
  | some post => cases post <;> rfl

/-- A message that does not get through the validation asks for nothing. -/
theorem asksFor_of_not_validated {msg : List UInt8}
    (h : validateEssentialResolverElements r msg = none) : asksFor r msg = none := by
  by_contra hne
  obtain ⟨⟨url, body⟩, hasks⟩ := Option.ne_none_iff_exists'.mp hne
  cases hmsg : JavaScript.jsonParse msg with
  | none =>
      rw [asksFor, hmsg] at hasks
      cases hasks
  | some m =>
      obtain ⟨ms, rfl⟩ := exists_obj_of_asksFor hmsg hasks
      rw [validateEssentialResolverElements_of_asksFor hmsg hasks] at h
      cases h

/-- A request that is due, once the message has been logged. -/
theorem forwards_iff_of_asksFor {msg : List UInt8} {url body : Value} (answered : Bool)
    (hmsg : JavaScript.jsonParse msg = some (.obj ms)) (hasks : asksFor r msg = some (url, body))
    (hlogged : r.stringifies (.obj ms) = true) : Forwards r msg (receive r answered msg) ↔
      Printable r (.obj ms) ∧ r.stringifies body = true := by
  rw [receive_of_validated answered (validateEssentialResolverElements_of_asksFor hmsg hasks),
    if_pos hlogged]
  rcases request_of_asksFor hmsg hasks with ⟨h, hthrows⟩ | ⟨post, h, hpost, hprintable, hbody⟩
  · rw [h]
    refine iff_of_false (fun hforwards => ?_) hthrows
    have hposts := hforwards.posts
    rw [hasks] at hposts
    cases hposts
  · rw [h]
    refine iff_of_true ⟨rfl, ?_⟩ ⟨hprintable, hbody⟩
    rw [hasks]
    exact congrArg (fun request => [request]) hpost

theorem forwards_of_asksFor_eq_none {msg : List UInt8} (answered : Bool)
    (hmsg : JavaScript.jsonParse msg = some (.obj ms))
    (hvalid : validateEssentialResolverElements r msg = some (.obj ms))
    (hasks : asksFor r msg = none) (hlogged : r.stringifies (.obj ms) = true) :
    Forwards r msg (receive r answered msg) := by
  rw [receive_of_validated answered hvalid, if_pos hlogged]
  refine ⟨rfl, ?_⟩
  rcases request_of_asksFor_eq_none hmsg hasks with h | h <;> rw [h, hasks] <;> rfl

/-- A text is forwarded as it asks exactly if what the interpreter logs can be written, and what
it puts into a text or compares with one can be converted to a string. -/
theorem forwards_iff (r : Runtime) (answered : Bool) (msg : List UInt8) :
    Forwards r msg (receive r answered msg) ↔ ∀ m, JavaScript.jsonParse msg = some m →
      Loggable r msg m ∧ ((asksFor r msg).isSome = true → Printable r m) := by
  rcases validateEssentialResolverElements_cases (r := r) msg with
    hvalid | ⟨ms, hmsg, hvalid⟩
  · have hasks := asksFor_of_not_validated hvalid
    have hreceive : receive r answered msg = ⟨[], false⟩ := by rw [receive, hvalid]
    rw [hreceive, hasks]
    refine iff_of_true ⟨rfl, by rw [hasks]; rfl⟩ fun m hm => ⟨⟨fun htrue => ?_, ?_⟩, nofun⟩
    · rw [validateEssentialResolverElements_eq, hm, Option.bind_some, if_pos htrue] at hvalid
      cases hvalid
    · rw [hasks]
      nofun
  · simp only [hmsg, Option.some.injEq, forall_eq']
    by_cases hlogged : r.stringifies (.obj ms) = true
    · cases hasks : asksFor r msg with
      | none =>
          refine iff_of_true (forwards_of_asksFor_eq_none answered hmsg hvalid hasks hlogged)
            ⟨⟨fun _ => hlogged, ?_⟩, nofun⟩
          rw [hasks]
          nofun
      | some request =>
          obtain ⟨url, body⟩ := request
          rw [forwards_iff_of_asksFor answered hmsg hasks hlogged]
          constructor
          · rintro ⟨hprintable, hbody⟩
            refine ⟨⟨fun _ => hlogged, fun url' body' hasks' => ?_⟩, fun _ => hprintable⟩
            obtain ⟨rfl, rfl⟩ := Prod.mk.inj (Option.some.inj (hasks.symm.trans hasks'))
            exact hbody
          · rintro ⟨hloggable, hprintable⟩
            exact ⟨hprintable rfl, hloggable.body url body hasks⟩
    -- the log line of `receive` throws
    · have htrue : toBoolean r.isZero (property "ReceiverURL" (.obj ms)) = true := by
        rw [validateEssentialResolverElements_eq, hmsg, Option.bind_some] at hvalid
        exact (Option.ite_none_right_eq_some.mp hvalid).1
      rw [receive_of_validated answered hvalid, if_neg hlogged]
      exact iff_of_false (fun hforwards => nomatch hforwards.resolved)
        fun ⟨hloggable, _⟩ => hlogged (hloggable.message htrue)

/-- The fields of a resolver message are strings where they are there. -/
def Textual (m : Value) : Prop :=
  ∀ name, property name m = none ∨ ∃ text, property name m = some (.str text)

theorem Textual.printable {m : Value} (h : Textual m) : Printable r m := by
  have hall : ∀ name, BrokerMessageInterpreter.printable r (property name m) = true := by
    intro name
    rcases h name with hnone | ⟨text, htext⟩
    · rw [hnone]
      rfl
    · rw [htext]
      rfl
  exact ⟨hall _, hall _, hall _, fun _ _ => hall _⟩

theorem truthy_eq_toBoolean (v : Option Value) : truthy r.toEngine v = toBoolean r.isZero v := by
  unfold truthy toBoolean
  rfl

theorem orUndefined_eq (v : Option Value) :
    HttpsEgress.orUndefined r.toEngine v = orUndefined r v := by
  rw [HttpsEgress.orUndefined, orUndefined, truthy_eq_toBoolean]

theorem equals_str (value text : String) : equals r (some (.str value)) text =
    some (decide (value = text)) := rfl

theorem equals_none (text : String) : equals r none text = some false := rfl

/-- Between strings the certificate that is handed over is the one of the typed interpreter. -/
theorem egressCert_of_textual (h : Textual (.obj ms)) : egressCert r (.obj ms) = some
    (if property "ReceiverType" (.obj ms) = some (.str "https") then
      HttpsEgress.orUndefined r.toEngine (property "ReceiverTLSCert" (.obj ms)) else none) := by
  simp only [egressCert, receiverTLSCert, getV_obj, Option.bind_eq_bind, Option.bind_some,
    HttpsEgress.orUndefined, truthy_eq_toBoolean]
  rcases h "ReceiverTLSCert" with hcert | ⟨cert, hcert⟩
  · simp [hcert, equals_none, toBoolean]
  · rw [hcert]
    by_cases hempty : cert = ""
    · simp [equals_str, toBoolean, hempty]
    · rcases h "ReceiverType" with htype | ⟨type, htype⟩
      · simp [equals_str, equals_none, toBoolean, hempty, htype]
      · by_cases hhttps : type = "https" <;> simp [equals_str, toBoolean, hempty, htype, hhttps]

theorem postRequest_of_printable {url body : Value} {user password cert : Option Value}
    (hurl : printable r (some url) = true) (huser : printable r user = true) :
    postRequest r url body user password cert =
      HttpsEgress.postRequest r.toEngine url body user password cert := by
  rw [← isSome_added (r := r), Option.isSome_iff_exists] at hurl huser
  obtain ⟨_, hurl⟩ := hurl
  obtain ⟨_, huser⟩ := huser
  simp only [postRequest, hurl, huser, Option.bind_eq_bind, Option.bind_some,
    HttpsEgress.postRequest, truthy_eq_toBoolean]
  cases r.stringifies body <;> rfl

/-- For a message of strings the request is the one of the interpreter with the types of
`IResolverMessage`. -/
theorem request_of_textual (hundefined : r.bufferFrom none = none)
    (hstring : ∀ s, r.bufferFrom (some (.str s)) = some (Base64.decode s.toList))
    (h : Textual (.obj ms)) :
    (request r (.obj ms)).bind id = HttpsEgress.handleResolverMessage r.toEngine (.obj ms) := by
  have hprintable := h.printable (r := r)
  rw [request_obj, HttpsEgress.handleResolverMessage, egressCert_of_textual h]
  simp only [orUndefined_eq]
  cases hurl : orUndefined r (property "ReceiverURL" (.obj ms)) with
  | none => rfl
  | some url =>
      have hurlText : printable r (some url) = true := by
        rw [← (orUndefined_eq_some_iff.mp hurl).1]
        exact hprintable.receiverURL
      have huserText : printable r (orUndefined r (property "ReceiverUser" (.obj ms))) = true := by
        rw [printable_orUndefined]
        exact hprintable.receiverUser
      obtain ⟨_, hadded⟩ := Option.isSome_iff_exists.mp ((isSome_added (r := r) _).trans hurlText)
      simp only [Option.elim_some, hadded, interactionMessage, getV_obj, Option.bind_eq_bind,
        Option.bind_some, postRequest_of_printable hurlText huserText]
      rcases h "EgressPayload" with hpayload | ⟨payload, hpayload⟩
      · simp [hpayload, hundefined]
      · rw [hpayload]
        simp only [hstring, Option.bind_some]
        change Option.bind (Option.bind (HttpsEgress.jsonParse _) _) id =
          Option.bind (HttpsEgress.jsonParse _) _
        cases HttpsEgress.jsonParse (Base64.decode payload.toList) with
        | none => rfl
        | some body =>
            simp only [Option.bind_some, truthy_eq_toBoolean]
            cases toBoolean r.isZero (some body) with
            | false => rfl
            | true =>
                generalize HttpsEgress.postRequest _ _ _ _ _ _ = post
                cases post <;> rfl

theorem typed_validateEssentialResolverElements (msg : List UInt8) :
    HttpsEgress.validateEssentialResolverElements r.toEngine msg =
      validateEssentialResolverElements r msg := by
  simp only [validateEssentialResolverElements_eq, HttpsEgress.validateEssentialResolverElements,
    truthy_eq_toBoolean]
  rfl

/-- A message of strings is handled as the interpreter with the types says. -/
theorem posts_of_textual (answered : Bool) {msg : List UInt8}
    (hundefined : r.bufferFrom none = none)
    (hstring : ∀ s, r.bufferFrom (some (.str s)) = some (Base64.decode s.toList))
    (h : ∀ m, JavaScript.jsonParse msg = some m → Textual m) :
    (receive r answered msg).posts = (HttpsEgress.receive r.toEngine msg).toList := by
  rw [HttpsEgress.receive, typed_validateEssentialResolverElements]
  rcases validateEssentialResolverElements_cases (r := r) msg with
    hvalid | ⟨ms, hmsg, hvalid⟩
  · rw [receive, hvalid]
    rfl
  · rw [receive_of_validated answered hvalid, hvalid, Option.bind_eq_bind, Option.bind_some,
      ← request_of_textual hundefined hstring (h _ hmsg)]
    split <;> rfl

end

/-! A user that is an object with a member `toString`. -/

/-- Strings are decoded. -/
def sampleRuntime : Runtime where
  isZero _ := false
  stringifies _ := true
  numberToString _ := ""
  joins _ := true
  bufferFrom := fun v =>
    match v with
    | some (.str s) => some (Base64.decode s.toList)
    | _ => none

def messageOfUser (user : Value) : Value :=
  .obj
    [("ReceiverURL", .str "http://aas"), ("EgressPayload", .str "e30="), ("ReceiverUser", user)]

theorem not_forwards_userObject :
    ¬ ∀ (r : Runtime) (answered : Bool) (msg : List UInt8),
      Forwards r msg (receive r answered msg) := by
  intro h
  let user : Value := .obj [("toString", .str "")]
  let msg := Utf8.bytes (messageOfUser user).text
  have hmsg : JavaScript.jsonParse msg = some (messageOfUser user) := read_text _
  have hpayload : JavaScript.jsonParse (Base64.decode "e30=".toList) = some (.obj []) :=
    read_text (.obj [])
  have hasks : asksFor sampleRuntime msg = some (.str "http://aas", .obj []) := by
    refine (asksFor_eq_some_iff hmsg).mpr ⟨rfl, ?_, rfl⟩
    exact hpayload
  have hprintable := ((forwards_iff_of_asksFor true hmsg hasks rfl).mp (h sampleRuntime true msg)).1
  cases hprintable.receiverUser

end I40Aas.HttpsEgress.BrokerMessageInterpreter
