import I40Aas.Interaction.Conversion
import I40Aas.Lib.Words

/-!
The topic under which `https-endpoint-ingress` publishes a message, next to the routing
key of the gRPC ingress. A skill binds to
`ingress.(semanticProtocol).(receiverRoleName).(type)`, and on a topic exchange every dot
begins a new word. `BrokerInteractionTopic` replaces the first dot of a component, the
gRPC ingress none.
-/

namespace I40Aas.HttpsIngress

open I40Aas.Lib I40Aas.Interaction

/-- `str.replace(".", "-")`: a string as pattern is replaced once. -/
def noDots (str : String) : String :=
  String.ofList (str.toList.replace '.' '-')

structure BrokerInteractionTopic where
  topicPrefix : String
  semanticProtocol : String
  receiverRole : String
  type : String
  deriving DecidableEq, Repr

namespace BrokerInteractionTopic

def new (topicPrefix semProtocol receiverRole type : String) : BrokerInteractionTopic where
  topicPrefix := topicPrefix
  receiverRole := noDots receiverRole
  semanticProtocol := noDots semProtocol
  type := noDots type

def getTopic (t : BrokerInteractionTopic) : String :=
  t.topicPrefix ++ "." ++ t.semanticProtocol ++ "." ++ t.receiverRole ++ "." ++ t.type

end BrokerInteractionTopic

/-- The topic of the handler of `/interaction`. Reading through a receiver or a role that
is not there throws. -/
def topicName (f : Frame) : Option String := do
  let receiver ← f.receiver
  let role ← receiver.role
  return (BrokerInteractionTopic.new "ingress" f.semanticProtocol role.name f.type).getTopic

/-- The words of a routing key on a topic exchange. -/
def words (key : String) : List (List Char) :=
  key.toList.splitOn '.'

/-- A component with every dot replaced. -/
def dashed (component : List Char) : List Char :=
  component.map fun c => if c = '.' then '-' else c

/-- Both ingresses publish the frame under one key, which is made of the prefix and the
three components as one word each. -/
def Agrees (f : Frame) (role : Role) : Prop :=
  ∃ key, topicName f = some key ∧ routingKey "ingress" f = some key ∧
    words key = ["ingress", f.semanticProtocol, role.name, f.type].map fun w => dashed w.toList

theorem not_mem_dashed (w : List Char) : '.' ∉ dashed w := by
  intro h
  obtain ⟨c, -, hc⟩ := List.mem_map.mp h
  split at hc
  · exact absurd hc (by decide)
  · contradiction

theorem dashed_of_not_mem {w : List Char} (h : '.' ∉ w) : dashed w = w := by
  refine (List.map_congr_left fun c hc => ?_).trans (List.map_id w)
  have hne : c ≠ '.' := fun heq => h (heq ▸ hc)
  exact if_neg hne

theorem noDots_of_not_mem {str : String} (h : '.' ∉ str.toList) : noDots str = str := by
  rw [noDots, List.replace_of_not_mem h, String.ofList_toList]

/-- The routing key of the gRPC ingress as joined words. -/
theorem toList_key (protocol role type : String) :
    ("ingress" ++ "." ++ protocol ++ "." ++ role ++ "." ++ type).toList =
      ['.'].intercalate (["ingress", protocol, role, type].map String.toList) := by
  simp [String.toList_append, List.intercalate_cons_cons]

theorem words_key_iff (protocol role type : String) :
    words ("ingress" ++ "." ++ protocol ++ "." ++ role ++ "." ++ type) =
        ["ingress", protocol, role, type].map (fun w => dashed w.toList) ↔
      '.' ∉ protocol.toList ∧ '.' ∉ role.toList ∧ '.' ∉ type.toList := by
  have h := splitOn_intercalate_eq_map_iff not_mem_dashed (fun w => dashed_of_not_mem)
    "ingress".toList ([protocol, role, type].map String.toList)
  rw [words, toList_key]
  have hingress : '.' ∉ "ingress".toList := by decide
  simpa [hingress] using h

/-- The two ingresses agree on a key of four words exactly when no component has a dot. -/
theorem agrees_iff {f : Frame} {receiver : ConversationMember} {role : Role}
    (hreceiver : f.receiver = some receiver) (hrole : receiver.role = some role) :
    Agrees f role ↔ '.' ∉ f.semanticProtocol.toList ∧ '.' ∉ role.name.toList ∧
      '.' ∉ f.type.toList := by
  have hkey : routingKey "ingress" f = some ("ingress" ++ "." ++ f.semanticProtocol ++ "." ++
      role.name ++ "." ++ f.type) := by
    simp [routingKey, hreceiver, hrole]
  have htopic : topicName f = some
      (BrokerInteractionTopic.new "ingress" f.semanticProtocol role.name f.type).getTopic := by
    simp [topicName, hreceiver, hrole]
  constructor
  · rintro ⟨key, -, hrouting, hwords⟩
    obtain rfl := Option.some.inj (hkey.symm.trans hrouting)
    exact (words_key_iff _ _ _).mp hwords
  · intro h
    refine ⟨_, ?_, hkey, (words_key_iff _ _ _).mpr h⟩
    rw [htopic, BrokerInteractionTopic.getTopic, BrokerInteractionTopic.new,
      noDots_of_not_mem h.1, noDots_of_not_mem h.2.1, noDots_of_not_mem h.2.2]

/-- A frame for the role `role`. -/
def frameTo (role : String) : Frame where
  semanticProtocol := "i40:registry-semanticProtocol/onboarding"
  type := "publishInstance"
  messageId := "1"
  replyBy := 0
  receiver := some ⟨some ⟨"receiver", "URI"⟩, some ⟨role⟩⟩
  sender := some ⟨some ⟨"sender", "URI"⟩, some ⟨"Operator"⟩⟩
  conversationId := "conversation"

theorem agrees_iff_central :
    Agrees (frameTo "CentralAssetRepository") ⟨"CentralAssetRepository"⟩ ↔
      '.' ∉ (frameTo "CentralAssetRepository").semanticProtocol.toList ∧
        '.' ∉ "CentralAssetRepository".toList ∧
        '.' ∉ (frameTo "CentralAssetRepository").type.toList :=
  agrees_iff rfl rfl

/-- A role with two dots: the topic of the https ingress has five words, the key of the
gRPC ingress six. -/
theorem not_agrees_dotted :
    ¬ ∀ (f : Frame) (receiver : ConversationMember) (role : Role), f.receiver = some receiver →
      receiver.role = some role → f.semanticProtocol ≠ "" → role.name ≠ "" → f.type ≠ "" →
      Agrees f role := by
  intro h
  obtain ⟨key, htopic, hrouting, -⟩ := h (frameTo "central.asset.repository") _ _ rfl rfl
    (by decide) (by decide) (by decide)
  have hdiffer : topicName (frameTo "central.asset.repository") ≠
      routingKey "ingress" (frameTo "central.asset.repository") := by
    decide +kernel
  exact hdiffer (htopic.trans hrouting.symm)

end I40Aas.HttpsIngress
