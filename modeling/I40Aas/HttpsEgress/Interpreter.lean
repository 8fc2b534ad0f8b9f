import I40Aas.Lib.Base64
import I40Aas.Lib.Json.Value

/-!
The https egress: `receive` reads a resolver message from the broker and posts the
interaction message in it. Values are what `JSON.parse` gives, a property that is
missing is `none`, and a request that is not made, or a message that cannot be
parsed, is `none` as well.
-/

namespace I40Aas.HttpsEgress

open I40Aas.Lib I40Aas.Lib.Json

abbrev Value := Json Literal

structure Post where
  url : Value
  body : Value
  auth : Option (Value × Value)
  ca : Option Value
  deriving DecidableEq

/-- `JSON.parse(buffer.toString())`. -/
def jsonParse (input : List UInt8) : Option Value :=
  read input

/-- A property of an object, which keeps the last member of each name. -/
def property (name : String) : Value → Option Value
  | .obj ms => ms.reverse.lookup name
  | _ => none

/-- What the engine decides: which number literals are read as zero, and for which values
`JSON.stringify` returns. It throws for a value that is nested deeper than the call stack. -/
structure Engine where
  isZero : Literal → Bool
  stringifies : Value → Bool

section

variable (js : Engine)

def truthy : Option Value → Bool
  | none | some .null => false
  | some (.bool b) => b
  | some (.num l) => !js.isZero l
  | some (.str s) => s ≠ ""
  | some (.arr _) | some (.obj _) => true

/-- `value ? value : undefined`. -/
def orUndefined (value : Option Value) : Option Value :=
  if truthy js value then value else none

/-- The body goes into a log line first. -/
def postRequest (baseUrl body : Value) (user password tlsCert : Option Value) : Option Post :=
  if js.stringifies body then
    some
      { url := baseUrl
        body := body
        auth :=
          match user, password with
          | some user, some password =>
            if truthy js (some user) && truthy js (some password) then some (user, password)
            else none
          | _, _ => none
        ca := tlsCert }
  else none

def validateEssentialResolverElements (msg : List UInt8) : Option Value := do
  let resolverMessage ← jsonParse msg
  if truthy js (property "ReceiverURL" resolverMessage) then
    some resolverMessage
  else none

def handleResolverMessage (resolverMessage : Value) : Option Post := do
  let receiverURL ← orUndefined js (property "ReceiverURL" resolverMessage)
  match property "EgressPayload" resolverMessage with
  | some (.str egressPayload) =>
    let interactionMessage ← jsonParse (Base64.decode egressPayload.toList)
    if truthy js (some interactionMessage) then
      let tlsCert := orUndefined js (property "ReceiverTLSCert" resolverMessage)
      postRequest js receiverURL interactionMessage
        (orUndefined js (property "ReceiverUser" resolverMessage))
        (orUndefined js (property "ReceiverPassword" resolverMessage))
        (if property "ReceiverType" resolverMessage = some (.str "https") then tlsCert else none)
    else none
  | _ => none

/-- The message goes into a log line as well. -/
def receive (msg : List UInt8) : Option Post := do
  let message ← validateEssentialResolverElements js msg
  if js.stringifies message then handleResolverMessage js message else none

end

end I40Aas.HttpsEgress
