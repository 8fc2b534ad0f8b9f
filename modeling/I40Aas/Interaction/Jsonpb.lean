import I40Aas.Interaction.Message
import I40Aas.Lib.Json.Decimal

/-!
The JSON form that proto3 gives the messages of the package. Fields are printed in
their order and left out at their default value; what is read may have no other
members. `Jsonpb.standard` does this and nothing else, and has what is assumed of
jsonpb elsewhere.
-/

namespace I40Aas.Interaction

open I40Aas.Lib I40Aas.Lib.Json

/-! Printing. Objects are lists of members in a text and maps once they are read. -/

section

variable {N α : Type}

def stringField (name s : String) : List (String × Json N) :=
  if s = "" then [] else [(name, .str s)]

def uint32Field (number : ℕ → N) (name : String) (n : UInt32) : List (String × Json N) :=
  if n = 0 then [] else [(name, .num (number n.toNat))]

def messageField (json : α → Json N) (name : String) : Option α → List (String × Json N)
  | none => []
  | some m => [(name, json m)]

end

section

variable {N : Type} (number : ℕ → N) (object : List (String × Json N) → Json N)

def Identification.json (i : Identification) : Json N :=
  object (stringField "id" i.id ++ stringField "idType" i.idType)

def Role.json (r : Role) : Json N :=
  object (stringField "name" r.name)

def ConversationMember.json (m : ConversationMember) : Json N :=
  object (messageField (Identification.json object) "identification" m.identification ++
    messageField (Role.json object) "role" m.role)

def Frame.members (f : Frame) : List (String × Json N) :=
  stringField "semanticProtocol" f.semanticProtocol ++
  stringField "type" f.type ++
  stringField "messageId" f.messageId ++
  uint32Field number "replyBy" f.replyBy ++
  messageField (ConversationMember.json object) "receiver" f.receiver ++
  messageField (ConversationMember.json object) "sender" f.sender ++
  stringField "conversationId" f.conversationId

end

/-! Reading. A null is a field that is not set. -/

section

variable {F : Type}

def stringOf : Json F → Option String
  | .null => some ""
  | .str s => some s
  | _ => none

/-- The number as it is printed is a decimal in the range of the type. -/
def uint32Of [FloatFormat F] : Json F → Option UInt32
  | .null => some 0
  | .num x => do
    let n ← natOf (FloatFormat.formatFloat x)
    if n < UInt32.size then some (UInt32.ofNat n) else none
  | _ => none

def messageOf {α : Type} (names : List String) (of : List (String × Json F) → Option α) :
    Json F → Option (Option α)
  | .null => some none
  | .obj ms => if ∀ m ∈ ms, m.1 ∈ names then (of ms).map some else none
  | _ => none

def identificationOf : Json F → Option (Option Identification) :=
  messageOf ["id", "idType"] fun ms => do
    let id ← stringOf (index ms "id")
    let idType ← stringOf (index ms "idType")
    return { id := id, idType := idType }

def roleOf : Json F → Option (Option Role) :=
  messageOf ["name"] fun ms => do
    let name ← stringOf (index ms "name")
    return { name := name }

def conversationMemberOf : Json F → Option (Option ConversationMember) :=
  messageOf ["identification", "role"] fun ms => do
    let identification ← identificationOf (index ms "identification")
    let role ← roleOf (index ms "role")
    return { identification := identification, role := role }

def frameFields : List String :=
  ["semanticProtocol", "type", "messageId", "replyBy", "receiver", "sender", "conversationId"]

def frameOf [FloatFormat F] : Json F → Option (Option Frame) :=
  messageOf frameFields fun ms => do
    let semanticProtocol ← stringOf (index ms "semanticProtocol")
    let type ← stringOf (index ms "type")
    let messageId ← stringOf (index ms "messageId")
    let replyBy ← uint32Of (index ms "replyBy")
    let receiver ← conversationMemberOf (index ms "receiver")
    let sender ← conversationMemberOf (index ms "sender")
    let conversationId ← stringOf (index ms "conversationId")
    return {
      semanticProtocol := semanticProtocol
      type := type
      messageId := messageId
      replyBy := replyBy
      receiver := receiver
      sender := sender
      conversationId := conversationId }

end

namespace Jsonpb

/-- The texts that a frame is read from are those of its fields. -/
def ReadsFields (F : Type) [FloatFormat F] (pb : Jsonpb) : Prop :=
  ∀ ms : List (String × Json F), (Json.obj ms).Canonical →
    (Json.obj ms).depth ≤ maxNestingDepth → (∀ s, index ms "replyBy" ≠ .str s) →
    pb.unmarshalString (marshal (.obj ms)) =
      match frameOf (.obj ms) with
      | some (some frame) => .ok frame
      | _ => .error .jsonpb

/-- Every frame has a text. -/
def Prints (pb : Jsonpb) : Prop :=
  ∀ frame, ∃ text, pb.marshalToString (some frame) = .ok text

def standard : Jsonpb where
  marshalToString
    | some frame => .ok (Utf8.bytes (Json.obj (frame.members decimal .obj)).text)
    | none => .error .jsonpb
  unmarshalString text :=
    match (unmarshal text : Option (Json ℕ)) with
    | some v =>
      match frameOf v with
      | some (some frame) => .ok frame
      | _ => .error .jsonpb
    | none => .error .jsonpb

theorem standard_prints : standard.Prints :=
  fun _ => ⟨_, rfl⟩

theorem standard_readsFields : standard.ReadsFields ℕ := by
  intro ms hcanonical hdepth _
  simp only [standard, unmarshal_marshal hcanonical hdepth]

end Jsonpb

/-! What was printed is decoded field by field. -/

section

variable {F α : Type} [FloatFormat F]

theorem decodeMembers_append {ms ns : List (String × Json Literal)}
    {vs ws : List (String × Json F)} (hms : decodeMembers ms = some vs)
    (hns : decodeMembers ns = some ws) : decodeMembers (ms ++ ns) = some (vs ++ ws) := by
  induction ms generalizing vs with
  | nil =>
      cases hms
      exact hns
  | cons m ms ih =>
      obtain ⟨k, t⟩ := m
      simp only [decodeMembers, Option.bind_eq_bind, Option.bind_eq_some_iff] at hms
      obtain ⟨v, hv, vs', hvs', heq⟩ := hms
      cases heq
      simp [decodeMembers, hv, ih hvs']

theorem decodeMembers_stringField (name s : String) :
    decodeMembers (stringField name s) = some (stringField name s : List (String × Json F)) := by
  unfold stringField
  split <;> rfl

theorem decodeMembers_uint32Field (name : String) (n : UInt32) :
    decodeMembers (uint32Field decimal name n) = some (uint32Field (fun n : ℕ => n) name n) := by
  unfold uint32Field
  split
  next => rfl
  next =>
    have hparse : FloatFormat.parseFloat (decimal n.toNat) = some n.toNat := natOf_decimal _
    simp [decodeMembers, decode, hparse]

theorem decodeMembers_messageField {json : α → Json Literal} {json' : α → Json F}
    (h : ∀ m, decode (json m) = some (json' m)) (name : String) (m : Option α) :
    decodeMembers (messageField json name m) = some (messageField json' name m) := by
  cases m with
  | none => rfl
  | some m => simp [messageField, decodeMembers, h m]

theorem decode_obj {ms : List (String × Json Literal)} {vs : List (String × Json F)}
    (h : decodeMembers ms = some vs) :
    decode (.obj ms) = some (.obj (ofMembers vs)) := by
  simp [decode, h]

/-- An object as it is read. -/
def readObject (ms : List (String × Json F)) : Json F :=
  .obj (ofMembers ms)

theorem decode_identification (i : Identification) :
    decode (i.json .obj) = some (i.json (readObject (F := F))) :=
  decode_obj (decodeMembers_append (decodeMembers_stringField _ _)
    (decodeMembers_stringField _ _))

theorem decode_role (r : Role) : decode (r.json .obj) = some (r.json (readObject (F := F))) :=
  decode_obj (decodeMembers_stringField _ _)

theorem decode_conversationMember (m : ConversationMember) :
    decode (m.json .obj) = some (m.json (readObject (F := F))) :=
  decode_obj (decodeMembers_append (decodeMembers_messageField decode_identification _ _)
    (decodeMembers_messageField decode_role _ _))

theorem decode_frame (f : Frame) :
    decode (.obj (f.members decimal .obj)) =
      some (.obj (ofMembers (f.members (fun n : ℕ => n) readObject))) := by
  apply decode_obj
  unfold Frame.members
  apply decodeMembers_append _ (decodeMembers_stringField _ _)
  apply decodeMembers_append _ (decodeMembers_messageField decode_conversationMember _ _)
  apply decodeMembers_append _ (decodeMembers_messageField decode_conversationMember _ _)
  apply decodeMembers_append _ (decodeMembers_uint32Field _ _)
  apply decodeMembers_append _ (decodeMembers_stringField _ _)
  apply decodeMembers_append (decodeMembers_stringField _ _) (decodeMembers_stringField _ _)

end

/-! Each field is found under its name again. -/

section

variable {N α : Type}

theorem lookup_stringField (k name s : String) :
    (stringField name s : List (String × Json N)).lookup k =
      if k = name ∧ s ≠ "" then some (.str s) else none := by
  unfold stringField
  by_cases hs : s = "" <;> simp [hs, lookup_cons_eq_ite]

theorem lookup_uint32Field (number : ℕ → N) (k name : String) (n : UInt32) :
    (uint32Field number name n).lookup k =
      if k = name ∧ n ≠ 0 then some (.num (number n.toNat)) else none := by
  unfold uint32Field
  by_cases hn : n = 0 <;> simp [hn, lookup_cons_eq_ite]

theorem lookup_messageField (json : α → Json N) (k name : String) (m : Option α) :
    (messageField json name m).lookup k =
      if k = name then m.map json else none := by
  cases m with
  | none => simp [messageField]
  | some m => simp [messageField, lookup_cons_eq_ite]

theorem keys_stringField (name s : String) :
    ((stringField name s : List (String × Json N)).map Prod.fst).Sublist [name] := by
  unfold stringField
  split <;> simp

theorem keys_uint32Field (number : ℕ → N) (name : String) (n : UInt32) :
    ((uint32Field number name n).map Prod.fst).Sublist [name] := by
  unfold uint32Field
  split <;> simp

theorem keys_messageField (json : α → Json N) (name : String) (m : Option α) :
    ((messageField json name m).map Prod.fst).Sublist [name] := by
  cases m <;> simp [messageField]

theorem keys_frame (number : ℕ → N) (object : List (String × Json N) → Json N) (f : Frame) :
    ((f.members number object).map Prod.fst).Sublist frameFields := by
  simp only [Frame.members, List.map_append]
  exact (((((((keys_stringField _ _).append (keys_stringField _ _)).append
    (keys_stringField _ _)).append (keys_uint32Field _ _ _)).append
    (keys_messageField _ _ _)).append (keys_messageField _ _ _)).append (keys_stringField _ _))

end

section

variable {F α : Type}

theorem messageOf_readObject {names : List String} {of : List (String × Json F) → Option α}
    {fields : List (String × Json F)} {x : α} (hnames : names.Nodup)
    (hkeys : (fields.map Prod.fst).Sublist names)
    (hof : ∀ ms, (∀ k, index ms k = (fields.lookup k).getD .null) → of ms = some x) :
    messageOf names of (readObject fields) = some (some x) := by
  have hknown : ∀ m ∈ ofMembers fields, m.1 ∈ names := fun m hm =>
    hkeys.subset (key_mem_ofMembers hm)
  have hindex : of (ofMembers fields) = some x :=
    hof _ fun k => index_ofMembers (hkeys.nodup hnames) k
  rw [readObject, messageOf, if_pos hknown, hindex]
  rfl

theorem stringOf_field (s : String) :
    stringOf ((if s = "" then none else some (.str s)).getD (.null : Json F)) = some s := by
  by_cases hs : s = "" <;> simp [hs, stringOf]

theorem identificationOf_json (i : Identification) :
    identificationOf (i.json (readObject (F := F))) = some (some i) := by
  apply messageOf_readObject (by decide)
  · rw [List.map_append]
    exact (keys_stringField _ _).append (keys_stringField _ _)
  · intro ms hms
    simp [hms, List.lookup_append, lookup_stringField, stringOf_field]

theorem roleOf_json (r : Role) : roleOf (r.json (readObject (F := F))) = some (some r) := by
  apply messageOf_readObject (by decide) (keys_stringField _ _)
  intro ms hms
  simp [hms, lookup_stringField, stringOf_field]

theorem messageOf_field {json : α → Json F} {of : Json F → Option (Option α)}
    (h : ∀ m, of (json m) = some (some m)) (hnull : of .null = some none) (m : Option α) :
    of ((m.map json).getD .null) = some m := by
  cases m with
  | none => exact hnull
  | some m => exact h m

theorem conversationMemberOf_json (m : ConversationMember) :
    conversationMemberOf (m.json (readObject (F := F))) = some (some m) := by
  apply messageOf_readObject (by decide)
  · rw [List.map_append]
    exact (keys_messageField _ _ _).append (keys_messageField _ _ _)
  · intro ms hms
    simp [hms, List.lookup_append, lookup_messageField,
      messageOf_field identificationOf_json rfl, messageOf_field roleOf_json rfl]

theorem uint32Of_field (n : UInt32) :
    uint32Of ((if n = 0 then none else some (.num n.toNat)).getD (.null : Json ℕ)) = some n := by
  by_cases hn : n = 0
  · simp [hn, uint32Of]
  · have hformat : FloatFormat.formatFloat n.toNat = decimal n.toNat := rfl
    simp [hn, uint32Of, hformat, natOf_decimal, UInt32.toNat_lt_size]

theorem frameOf_members (f : Frame) :
    frameOf (readObject (f.members (fun n : ℕ => n) readObject)) = some (some f) := by
  apply messageOf_readObject (by decide) (keys_frame _ _ f)
  intro ms hms
  simp [hms, Frame.members, List.lookup_append, lookup_stringField, lookup_uint32Field,
    lookup_messageField, stringOf_field, uint32Of_field,
    messageOf_field conversationMemberOf_json rfl]

end

/-! Frames are shallow. -/

section

variable {N α : Type}

theorem depthMembers_append (ms ns : List (String × Json N)) :
    depthMembers (ms ++ ns) = max (depthMembers ms) (depthMembers ns) := by
  induction ms with
  | nil => simp [depthMembers]
  | cons m ms ih => simp [depthMembers, ih, Nat.max_assoc]

theorem depthMembers_stringField (name s : String) :
    depthMembers (stringField name s : List (String × Json N)) = 0 := by
  unfold stringField
  split <;> rfl

theorem depthMembers_uint32Field (number : ℕ → N) (name : String) (n : UInt32) :
    depthMembers (uint32Field number name n) = 0 := by
  unfold uint32Field
  split <;> rfl

theorem depthMembers_messageField {json : α → Json N} {bound : ℕ}
    (h : ∀ m, (json m).depth ≤ bound) (name : String) (m : Option α) :
    depthMembers (messageField json name m) ≤ bound := by
  cases m with
  | none => exact Nat.zero_le _
  | some m => simpa [messageField, depthMembers] using h m

theorem depth_conversationMember (m : ConversationMember) :
    (m.json (N := N) .obj).depth ≤ 2 := by
  have hidentification : ∀ i : Identification, (i.json (N := N) .obj).depth ≤ 1 := fun i => by
    simp [Identification.json, depth, depthMembers_append, depthMembers_stringField]
  have hrole : ∀ r : Role, (r.json (N := N) .obj).depth ≤ 1 := fun r => by
    simp [Role.json, depth, depthMembers_stringField]
  have hfirst := depthMembers_messageField hidentification "identification" m.identification
  have hsecond := depthMembers_messageField hrole "role" m.role
  rw [ConversationMember.json, depth, depthMembers_append]
  omega

theorem depth_frame (number : ℕ → N) (f : Frame) :
    (Json.obj (f.members number .obj)).depth ≤ 3 := by
  have hreceiver := depthMembers_messageField (depth_conversationMember (N := N)) "receiver"
    f.receiver
  have hsender := depthMembers_messageField (depth_conversationMember (N := N)) "sender" f.sender
  simp only [depth, Frame.members, depthMembers_append, depthMembers_stringField,
    depthMembers_uint32Field]
  omega

end

theorem Jsonpb.standard_roundTrips : standard.RoundTrips ℕ := by
  intro frame text htext
  cases frame with
  | none => cases htext
  | some frame =>
      cases htext
      have hdecode := decode_frame frame
      have hdepth : (Json.obj (frame.members decimal .obj)).depth < maxNestingDepth :=
        Nat.lt_of_le_of_lt (depth_frame decimal frame) (by decide)
      obtain ⟨hcanonical, hle⟩ := decode_canonical _ _ hdecode
      refine ⟨frame, _, _, rfl, read_text _, hdepth, hdecode, ?_⟩
      have hread := frameOf_members frame
      have hunmarshal := unmarshal_marshal hcanonical
        (Nat.le_of_lt (Nat.lt_of_le_of_lt hle hdepth))
      rw [readObject] at hread
      simp only [standard, hunmarshal, hread]

end I40Aas.Interaction
