import I40Aas.Interaction.Jsonpb
import I40Aas.Lib.Json.Stringify

/-!
The reply of a skill, from `MessageSender.replyTo` to the resolver. The frame of the
reply is a copy of the incoming one with four members set anew, and the incoming frame
may have members of any name, which neither the https ingress nor the
`MessageInterpreter` minds. The resolver reads frames with jsonpb, which does, so it
understands the reply only to a frame without members of its own (`answered_iff`).
-/

namespace I40Aas.OnboardingSkill

open I40Aas.Lib I40Aas.Lib.Json I40Aas.Interaction

variable {F : Type}

/-! The checks that an incoming frame has passed. -/

section

/-- `v.name`, which may be undefined. Reading from undefined or null throws. -/
def get (v : Option (Json F)) (name : String) : Option (Option (Json F)) :=
  match v with
  | none | some .null => none
  | some (.obj ms) => some (ms.lookup name)
  | some _ => some none

/-- Of the https ingress. Only a throw is noticed. -/
def validateInteractionFrame (frame : Json F) : Bool :=
  Option.isSome do
    let _ ← get (some frame) "semanticProtocol"
    let receiver ← get (some frame) "receiver"
    let receiverRole ← get receiver "role"
    let _ ← get receiverRole "name"
    let _ ← get (some frame) "type"
    get (some frame) "conversationId"

variable [FloatFormat F]

def isZero (x : F) : Bool :=
  (FloatFormat.formatFloat x).val ∈ [['0'], ['-', '0']]

def truthy : Option (Json F) → Bool
  | none | some .null => false
  | some (.bool b) => b
  | some (.num x) => !isZero x
  | some (.str s) => s ≠ ""
  | some (.arr _) | some (.obj _) => true

/-- Of the interpreter: there is a sender id or a sender role. -/
def validateEssential (frame : Json F) : Bool :=
  let essentialDataGiven := do
    let sender ← get (some frame) "sender"
    let identification ← get sender "identification"
    let role ← get sender "role"
    return (truthy identification && truthy ((get identification "id").getD none)) || truthy role
  essentialDataGiven.getD false

/-- `e === undefined || e.length === 0`, which throws for null. -/
def missing : Option (Json F) → Option Bool
  | none => some true
  | some .null => none
  | some (.str s) => some (s = "")
  | some (.arr es) => some es.isEmpty
  | some (.obj ms) =>
    match ms.lookup "length" with
    | some (.num x) => some (isZero x)
    | _ => some false
  | some _ => some false

def validateRequired (frame : Json F) : Bool :=
  let requiredDataGiven := do
    let sender ← get (some frame) "sender"
    let role ← get sender "role"
    let senderRole ← missing (← get role "name")
    let messageType ← missing (← get (some frame) "type")
    let conversationId ← missing (← get (some frame) "conversationId")
    return !senderRole && !messageType && !conversationId
  requiredDataGiven.getD false

def passes (frame : Json F) : Bool :=
  validateInteractionFrame frame && validateEssential frame && validateRequired frame

end

/-! The reply. -/

structure SkillIdentification where
  id : String
  idType : String
  role : String
  deriving DecidableEq, Repr

namespace SkillIdentification

def json (skill : SkillIdentification) : Json F :=
  .obj
    [("identification", .obj [("id", .str skill.id), ("idType", .str skill.idType)]),
     ("role", .obj [("name", .str skill.role)])]

def member (skill : SkillIdentification) : ConversationMember :=
  { identification := some { id := skill.id, idType := skill.idType }
    role := some { name := skill.role } }

end SkillIdentification

/-- `o[k] = v`, where a member that is undefined is not printed. -/
def assignMember (k : String) (v : Option (Json F)) (ms : List (String × Json F)) :
    List (String × Json F) :=
  match v with
  | some v => setMember k v ms
  | none => ms.filter (·.1 ≠ k)

/-- Parsing what was printed before gives a copy. -/
def getReplyFrame (skill : SkillIdentification) (uuid : String)
    (frameOfSource : List (String × Json F)) (type : String) : List (String × Json F) :=
  let frame := frameOfSource
  let frame := assignMember "receiver" (frame.lookup "sender") frame
  let frame := setMember "sender" skill.json frame
  let frame := setMember "type" (.str type) frame
  setMember "messageId" (.str uuid) frame

variable [FloatFormat F]

/-- The text of the message that is published. -/
def replyTo (skill : SkillIdentification) (uuid : String) (sourceFrame : List (String × Json F))
    (type : String) (interactionElements : Option (List (Json F))) : List UInt8 :=
  stringify (.obj
    [("frame", .obj (getReplyFrame skill uuid sourceFrame type)),
     ("interactionElements", .arr (interactionElements.getD []))])

/-! The incoming frames in question, and what the reply to one is to say. -/

/-- A member of an object, and null for anything else. -/
def field (v : Json F) (name : String) : Json F :=
  match v with
  | .obj ms => index ms name
  | _ => .null

structure IsMember (v : Json F) : Prop where
  id : ∃ id, field (field v "identification") "id" = .str id
  name : ∃ name, field (field v "role") "name" = .str name

/-- The frame may have other members, here and in its parts. -/
structure Incoming (frame : List (String × Json F)) : Prop where
  canonical : (Json.obj frame).Canonical
  semanticProtocol : ∃ s, index frame "semanticProtocol" = .str s
  type : ∃ s, index frame "type" = .str s
  messageId : ∃ s, index frame "messageId" = .str s
  conversationId : ∃ s, index frame "conversationId" = .str s
  sender : IsMember (index frame "sender")
  receiver : IsMember (index frame "receiver")
  replyBy : index frame "replyBy" = .null ∨
    ∃ n x, index frame "replyBy" = .num x ∧ FloatFormat.parseFloat (decimal n) = some x

structure SameMember (v : Json F) (identification : Identification) (role : Role) : Prop where
  id : field (field v "identification") "id" = .str identification.id
  idType : field (field v "identification") "idType" = .str identification.idType ∨
    (field (field v "identification") "idType" = .null ∧ identification.idType = "")
  name : field (field v "role") "name" = .str role.name

structure Answers (skill : SkillIdentification) (frame : List (String × Json F)) (type : String)
    (decoded : Frame) : Prop where
  receiver : ∃ identification role, SameMember (index frame "sender") identification role ∧
    decoded.receiver = some { identification := some identification, role := some role }
  sender : decoded.sender = some skill.member
  type : decoded.type = type
  conversationId : index frame "conversationId" = .str decoded.conversationId
  semanticProtocol : index frame "semanticProtocol" = .str decoded.semanticProtocol
  replyBy : (index frame "replyBy" = .null ∧ decoded.replyBy = 0) ∨
    ∃ x, index frame "replyBy" = .num x ∧
      FloatFormat.parseFloat (decimal decoded.replyBy.toNat) = some x

/-- The resolver accepts the text, as this answer. -/
def Answered (pb : Jsonpb) (skill : SkillIdentification) (uuid : String)
    (frame : List (String × Json F)) (type : String)
    (interactionElements : Option (List (Json F))) : Prop :=
  ∃ im decoded,
    newInteractionMessage F pb (.bytes (replyTo skill uuid frame type interactionElements)) =
      .ok im ∧
    im.frame = some decoded ∧ Answers skill frame type decoded

/-! The frames that have no other members. -/

def OnlyMembers (names : List String) : Json F → Prop
  | .obj ms => ∀ m ∈ ms, m.1 ∈ names
  | _ => True

structure ClosedMember (v : Json F) : Prop where
  members : OnlyMembers ["identification", "role"] v
  identification : OnlyMembers ["id", "idType"] (field v "identification")
  idType : field (field v "identification") "idType" = .null ∨
    ∃ s, field (field v "identification") "idType" = .str s
  role : OnlyMembers ["name"] (field v "role")

/-- What the receiver is does not matter, it is set anew. -/
structure Closed (frame : List (String × Json F)) : Prop where
  members : ∀ m ∈ frame, m.1 ∈ frameFields
  sender : ClosedMember (index frame "sender")
  replyBy : ∀ x, index frame "replyBy" = .num x →
    ∃ n < UInt32.size, FloatFormat.parseFloat (decimal n) = some x

/-! Such a frame passes the checks. -/

omit [FloatFormat F] in
theorem lookup_of_index {ms : List (String × Json F)} {name : String} {v : Json F}
    (h : index ms name = v) (hv : v ≠ .null) : ms.lookup name = some v := by
  rw [index] at h
  cases hlookup : ms.lookup name with
  | none =>
      rw [hlookup] at h
      exact absurd h.symm hv
  | some w =>
      rw [hlookup] at h
      exact congrArg some h

omit [FloatFormat F] in
theorem obj_of_field {v : Json F} {name : String} {w : Json F} (h : field v name = w)
    (hw : w ≠ .null) : ∃ ms, v = .obj ms := by
  cases v with
  | obj ms => exact ⟨ms, rfl⟩
  | _ => exact absurd h.symm hw

omit [FloatFormat F] in
theorem IsMember.eq_obj {v : Json F} (h : IsMember v) :
    ∃ ms is rs, v = .obj ms ∧ index ms "identification" = .obj is ∧
      index ms "role" = .obj rs := by
  obtain ⟨id, hid⟩ := h.id
  obtain ⟨name, hname⟩ := h.name
  obtain ⟨is, his⟩ := obj_of_field hid (by simp)
  obtain ⟨rs, hrs⟩ := obj_of_field hname (by simp)
  obtain ⟨ms, rfl⟩ := obj_of_field his (by simp)
  exact ⟨ms, is, rs, rfl, his, hrs⟩

/-- The texts that the interpreter asks for must not be empty. -/
theorem passes_of_incoming {frame : List (String × Json F)} (h : Incoming frame)
    (hrole : field (field (index frame "sender") "role") "name" ≠ .str "")
    (htype : index frame "type" ≠ .str "")
    (hconversationId : index frame "conversationId" ≠ .str "") :
    passes (.obj frame) = true := by
  obtain ⟨protocol, hprotocol⟩ := h.semanticProtocol
  obtain ⟨type, htype'⟩ := h.type
  obtain ⟨conversationId, hconversationId'⟩ := h.conversationId
  obtain ⟨ms, is, rs, hms, his, hrs⟩ := h.sender.eq_obj
  obtain ⟨ms', is', rs', hms', -, hrs'⟩ := h.receiver.eq_obj
  obtain ⟨name, hname⟩ := h.sender.name
  obtain ⟨name', hname'⟩ := h.receiver.name
  simp only [hms, hms', field, hrs, hrs'] at hname hname' hrole
  have hnonempty : name ≠ "" ∧ type ≠ "" ∧ conversationId ≠ "" := by
    refine ⟨?_, ?_, ?_⟩
    · rintro rfl
      exact hrole hname
    · rintro rfl
      exact htype htype'
    · rintro rfl
      exact hconversationId hconversationId'
  have hlookup := @lookup_of_index F
  simp [passes, validateInteractionFrame, validateEssential, validateRequired, get, truthy,
    missing, hlookup hprotocol, hlookup htype', hlookup hconversationId', hlookup hms,
    hlookup hms', hlookup his, hlookup hrs, hlookup hrs', hlookup hname, hlookup hname',
    hnonempty]

/-! A conversation member is read when it is closed. -/

omit [FloatFormat F] in
theorem conversationMemberOf_of_closed {v : Json F} (h : IsMember v) (hclosed : ClosedMember v) :
    ∃ identification role, SameMember v identification role ∧
      conversationMemberOf v =
        some (some { identification := some identification, role := some role }) := by
  obtain ⟨ms, is, rs, rfl, his, hrs⟩ := h.eq_obj
  obtain ⟨id, hid⟩ := h.id
  obtain ⟨name, hname⟩ := h.name
  obtain ⟨hmembers, hidentification, hidType, hrole⟩ := hclosed
  simp only [field, his, hrs, OnlyMembers] at hid hname hmembers hidentification hidType hrole
  have hrole' : roleOf (.obj rs) = some (some { name := name }) := by
    simp only [roleOf, messageOf, if_pos hrole, hname, stringOf]
    rfl
  have hid' : ∃ idType, identificationOf (.obj is) =
        some (some { id := id, idType := idType }) ∧
      (index is "idType" = .str idType ∨ (index is "idType" = .null ∧ idType = "")) := by
    simp only [identificationOf, messageOf, if_pos hidentification, hid, stringOf]
    cases hidType with
    | inl hnull =>
        rw [hnull]
        exact ⟨"", rfl, .inr ⟨rfl, rfl⟩⟩
    | inr hstr =>
        obtain ⟨s, hs⟩ := hstr
        rw [hs]
        exact ⟨s, rfl, .inl rfl⟩
  obtain ⟨idType, hidentificationOf, hsame⟩ := hid'
  refine ⟨{ id := id, idType := idType }, { name := name }, ?_, ?_⟩
  · exact {
      id := by simp only [field, his, hid]
      idType := by simpa only [field, his] using hsame
      name := by simp only [field, hrs, hname] }
  · simp only [conversationMemberOf, messageOf, if_pos hmembers, his, hrs, hidentificationOf,
      hrole']
    rfl

omit [FloatFormat F] in
theorem closed_of_conversationMemberOf {v : Json F} (h : IsMember v)
    {m : Option ConversationMember} (hof : conversationMemberOf v = some m) :
    ClosedMember v := by
  obtain ⟨ms, is, rs, rfl, his, hrs⟩ := h.eq_obj
  simp only [conversationMemberOf, messageOf] at hof
  split at hof
  next hmembers =>
    simp only [his, hrs, Option.map_eq_some_iff, Option.bind_eq_bind,
      Option.bind_eq_some_iff] at hof
    obtain ⟨_, ⟨i, hi, r, hr, -⟩, -⟩ := hof
    simp only [identificationOf, messageOf] at hi
    simp only [roleOf, messageOf] at hr
    split at hi
    next hidentification =>
      split at hr
      next hrole =>
        simp only [Option.map_eq_some_iff, Option.bind_eq_bind, Option.bind_eq_some_iff] at hi
        obtain ⟨_, ⟨_, -, idType, hidType, -⟩, -⟩ := hi
        refine {
          members := hmembers
          identification := by simpa only [field, his, OnlyMembers] using hidentification
          idType := ?_
          role := by simpa only [field, hrs, OnlyMembers] using hrole }
        simp only [field, his]
        cases hvalue : index is "idType" with
        | null => exact .inl rfl
        | str s => exact .inr ⟨s, rfl⟩
        | _ =>
            rw [hvalue] at hidType
            cases hidType
      next => cases hr
    next => cases hi
  next => cases hof

/-! The frame of the reply. -/

section

variable {skill : SkillIdentification} {uuid type : String} {frame : List (String × Json F)}

theorem lookup_sender (h : Incoming frame) :
    frame.lookup "sender" = some (index frame "sender") := by
  obtain ⟨ms, -, -, hms, -, -⟩ := h.sender.eq_obj
  rw [hms]
  exact lookup_of_index hms (by simp)

theorem getReplyFrame_eq (h : Incoming frame) :
    getReplyFrame skill uuid frame type =
      setMember "messageId" (.str uuid) (setMember "type" (.str type)
        (setMember "sender" skill.json (setMember "receiver" (index frame "sender") frame))) := by
  simp only [getReplyFrame, lookup_sender h, assignMember]

/-- Only four members are set. -/
theorem index_getReplyFrame (h : Incoming frame) (k : String) :
    index (getReplyFrame skill uuid frame type) k =
      if k = "messageId" then .str uuid
      else if k = "type" then .str type
      else if k = "sender" then skill.json
      else if k = "receiver" then index frame "sender"
      else index frame k := by
  simp only [getReplyFrame_eq h, index_setMember]

theorem members_getReplyFrame (h : Incoming frame) :
    (∀ m ∈ getReplyFrame skill uuid frame type, m.1 ∈ frameFields) ↔
      ∀ m ∈ frame, m.1 ∈ frameFields := by
  have hkeys : ∀ ms : List (String × Json F), (∀ m ∈ ms, m.1 ∈ frameFields) ↔
      ∀ k ∈ ms.map Prod.fst, k ∈ frameFields := fun ms => by
    simp only [List.forall_mem_map]
  have hset : "messageId" ∈ frameFields ∧ "type" ∈ frameFields ∧ "sender" ∈ frameFields ∧
      "receiver" ∈ frameFields := by decide
  rw [hkeys, hkeys, getReplyFrame_eq h]
  simp only [mem_keys_setMember, forall_eq_or_imp, hset, true_and]

omit [FloatFormat F] in
theorem canonical_member (id idType role : String) :
    (Json.obj
      [("identification", .obj [("id", .str id), ("idType", .str idType)]),
       ("role", .obj [("name", .str role)])] : Json F).Canonical := by
  have hstr : ∀ s : String, (Json.str s : Json F).Canonical := fun s => by
    simp [Canonical]
  have hidentification : (Json.obj [("id", .str id), ("idType", .str idType)] : Json F).Canonical :=
    ⟨sorted_pair (by decide) _ _, hstr id, hstr idType, trivial⟩
  have hrole : (Json.obj [("name", .str role)] : Json F).Canonical :=
    ⟨List.pairwise_singleton _ _, hstr role, trivial⟩
  exact ⟨sorted_pair (by decide) _ _, hidentification, hrole, trivial⟩

theorem canonical_getReplyFrame (h : Incoming frame) :
    (Json.obj (getReplyFrame skill uuid frame type)).Canonical := by
  obtain ⟨hsorted, hmembers⟩ := h.canonical
  have hskill : (skill.json : Json F).Canonical :=
    canonical_member skill.id skill.idType skill.role
  have hstr : ∀ s : String, (Json.str s : Json F).Canonical := fun s => by
    simp [Canonical]
  rw [getReplyFrame_eq h]
  refine ⟨?_, ?_⟩
  · apply setMember_sorted
    apply setMember_sorted
    apply setMember_sorted
    exact setMember_sorted hsorted _ _
  · apply setMember_canonical (hstr uuid)
    apply setMember_canonical (hstr type)
    apply setMember_canonical hskill
    exact setMember_canonical (index_canonical hmembers _) hmembers

omit [FloatFormat F] in
theorem conversationMemberOf_json (skill : SkillIdentification) :
    conversationMemberOf (skill.json : Json F) = some (some skill.member) := by
  simp [conversationMemberOf, identificationOf, roleOf, messageOf, SkillIdentification.json,
    SkillIdentification.member, index, lookup_cons_eq_ite, stringOf]

/-- What jsonpb makes of it depends on the names, the sender and `replyBy`. -/
theorem frameOf_getReplyFrame (h : Incoming frame) {protocol conversationId : String}
    (hprotocol : index frame "semanticProtocol" = .str protocol)
    (hconversationId : index frame "conversationId" = .str conversationId) :
    frameOf (.obj (getReplyFrame skill uuid frame type)) =
      if ∀ m ∈ frame, m.1 ∈ frameFields then
        (uint32Of (index frame "replyBy")).bind fun replyBy =>
          (conversationMemberOf (index frame "sender")).map fun receiver =>
            some {
              semanticProtocol := protocol
              type := type
              messageId := uuid
              replyBy := replyBy
              receiver := receiver
              sender := some skill.member
              conversationId := conversationId }
      else none := by
  simp only [frameOf, messageOf, members_getReplyFrame h]
  split
  next =>
    simp only [index_getReplyFrame h]
    cases hreplyBy : uint32Of (index frame "replyBy") with
    | none => simp [hprotocol, hreplyBy, stringOf]
    | some replyBy =>
        cases hsender : conversationMemberOf (index frame "sender") with
        | none => simp [hprotocol, hreplyBy, hsender, stringOf]
        | some receiver =>
            simp [hprotocol, hconversationId, hreplyBy, hsender, stringOf,
              conversationMemberOf_json]
  next => rfl

omit [FloatFormat F] in
theorem depth_closedMember {v : Json F} (hcanonical : v.Canonical) (h : IsMember v)
    (hclosed : ClosedMember v) : v.depth ≤ 2 := by
  obtain ⟨ms, is, rs, rfl, his, hrs⟩ := h.eq_obj
  obtain ⟨id, hid⟩ := h.id
  obtain ⟨name, hname⟩ := h.name
  obtain ⟨hmembers, hidentification, hidType, hrole⟩ := hclosed
  simp only [field, his, hrs, OnlyMembers] at hid hname hmembers hidentification hidType hrole
  have his' := index_canonical hcanonical.2 "identification"
  have hrs' := index_canonical hcanonical.2 "role"
  rw [his] at his'
  rw [hrs] at hrs'
  have hisDepth : depthMembers is ≤ 0 := by
    apply depthMembers_le his'.1 hidentification
    intro k hk
    simp only [List.mem_cons, List.not_mem_nil, or_false] at hk
    rcases hk with rfl | rfl
    · simp [hid, depth]
    · rcases hidType with hnull | ⟨s, hs⟩
      · simp [hnull, depth]
      · simp [hs, depth]
  have hrsDepth : depthMembers rs ≤ 0 := by
    apply depthMembers_le hrs'.1 hrole
    intro k hk
    simp [List.mem_singleton.1 hk, hname, depth]
  have hmsDepth : depthMembers ms ≤ 1 := by
    apply depthMembers_le hcanonical.1 hmembers
    intro k hk
    simp only [List.mem_cons, List.not_mem_nil, or_false] at hk
    rcases hk with rfl | rfl
    · rw [his, depth]
      omega
    · rw [hrs, depth]
      omega
  rw [depth]
  omega

/-- The frame of a reply to a closed frame is shallow. -/
theorem depth_getReplyFrame (h : Incoming frame) (hclosed : Closed frame) :
    (Json.obj (getReplyFrame skill uuid frame type)).depth ≤ 3 := by
  have hsender := depth_closedMember (index_canonical h.canonical.2 "sender") h.sender
    hclosed.sender
  have hmembers : depthMembers (getReplyFrame skill uuid frame type) ≤ 2 := by
    apply depthMembers_le (canonical_getReplyFrame h).1
      ((members_getReplyFrame h).2 hclosed.members)
    intro k hk
    rw [index_getReplyFrame h]
    obtain ⟨protocol, hprotocol⟩ := h.semanticProtocol
    obtain ⟨conversationId, hconversationId⟩ := h.conversationId
    have hskill : (skill.json : Json F).depth = 2 := rfl
    have hreplyBy : (index frame "replyBy").depth = 0 := by
      rcases h.replyBy with hnull | ⟨n, x, hx, -⟩
      · simp [hnull, depth]
      · simp [hx, depth]
    simp only [frameFields, List.mem_cons, List.not_mem_nil, or_false] at hk
    rcases hk with rfl | rfl | rfl | rfl | rfl | rfl | rfl
    all_goals simp [hprotocol, hconversationId, hskill, hreplyBy, hsender, depth]
  rw [depth]
  omega

/-- What the resolver makes of the text, which must not be nested too deep. -/
theorem newInteractionMessage_replyTo {pb : Jsonpb} (hpb : pb.ReadsFields F) (h : Incoming frame)
    {interactionElements : Option (List (Json F))}
    (helements : (Json.arr (interactionElements.getD [])).Canonical) :
    newInteractionMessage F pb (.bytes (replyTo skill uuid frame type interactionElements)) =
      if max (Json.obj (getReplyFrame skill uuid frame type)).depth
          (Json.arr (interactionElements.getD [])).depth < maxNestingDepth then
        match frameOf (.obj (getReplyFrame skill uuid frame type)) with
        | some (some decoded) => .ok {
            frame := some decoded
            interactionElements := marshal (.arr (interactionElements.getD [])) }
        | _ => .error .jsonpb
      else .error .encodingJson := by
  have hframe : (Json.obj (getReplyFrame skill uuid frame type)).Canonical :=
    canonical_getReplyFrame h
  have hcanonical : (Json.obj [("frame", .obj (getReplyFrame skill uuid frame type)),
      ("interactionElements", .arr (interactionElements.getD []))]).Canonical :=
    ⟨sorted_pair (by decide) _ _, hframe, helements, trivial⟩
  have hdepth : (Json.obj [("frame", .obj (getReplyFrame skill uuid frame type)),
      ("interactionElements", .arr (interactionElements.getD []))]).depth =
      max (Json.obj (getReplyFrame skill uuid frame type)).depth
        (Json.arr (interactionElements.getD [])).depth + 1 := by
    simp only [depth, depthMembers, Nat.max_zero]
  have hunmarshal := unmarshal_stringify hcanonical
  rw [hdepth] at hunmarshal
  rw [replyTo, newInteractionMessage, fromRawJSON, unmarshalMap, hunmarshal]
  by_cases hfits : max (Json.obj (getReplyFrame skill uuid frame type)).depth
      (Json.arr (interactionElements.getD [])).depth < maxNestingDepth
  · have hreplyBy : ∀ s, index (getReplyFrame skill uuid frame type) "replyBy" ≠ .str s := by
      intro s
      rw [index_getReplyFrame h]
      rcases h.replyBy with hnull | ⟨_, x, hx, -⟩
      · simp [hnull]
      · simp [hx]
    have hproto := hpb _ hframe (by omega) hreplyBy
    rw [if_pos (Nat.succ_le_of_lt hfits), if_pos hfits]
    simp only [bind, Except.bind, index_frame, index_interactionElements, hproto]
    cases frameOf (.obj (getReplyFrame skill uuid frame type)) with
    | none => rfl
    | some decoded => cases decoded <;> rfl
  · rw [if_neg (by omega), if_neg hfits]
    rfl

end

theorem uint32Of_exact (hF : Exact F UInt32.size) {n : ℕ} {x : F} (hn : n < UInt32.size)
    (hx : FloatFormat.parseFloat (decimal n) = some x) :
    uint32Of (.num x) = some (UInt32.ofNat n) := by
  obtain ⟨x', hparse, hformat⟩ := hF n hn
  obtain rfl : x = x' := Option.some.inj (hx.symm.trans hparse)
  simp only [uint32Of, hformat, natOf_decimal]
  simp [hn]

theorem replyBy_of_closed (hF : Exact F UInt32.size) {frame : List (String × Json F)}
    (h : Incoming frame) (hclosed : Closed frame) :
    ∃ replyBy, uint32Of (index frame "replyBy") = some replyBy ∧
      ((index frame "replyBy" = .null ∧ replyBy = 0) ∨
        ∃ x, index frame "replyBy" = .num x ∧
          FloatFormat.parseFloat (decimal replyBy.toNat) = some x) := by
  rcases h.replyBy with hnull | ⟨_, x, hx, -⟩
  · exact ⟨0, by rw [hnull]; rfl, .inl ⟨hnull, rfl⟩⟩
  · obtain ⟨n, hn, hparse⟩ := hclosed.replyBy x hx
    refine ⟨UInt32.ofNat n, by rw [hx]; exact uint32Of_exact hF hn hparse, .inr ⟨x, hx, ?_⟩⟩
    rw [UInt32.toNat_ofNat_of_lt' hn]
    exact hparse

section

variable {pb : Jsonpb} {skill : SkillIdentification} {uuid type : String}
  {frame : List (String × Json F)} {interactionElements : Option (List (Json F))}

theorem closed_of_answered (hpb : pb.ReadsFields F) (h : Incoming frame)
    (helements : (Json.arr (interactionElements.getD [])).Canonical)
    (hanswered : Answered pb skill uuid frame type interactionElements) :
    Closed frame ∧ (Json.arr (interactionElements.getD [])).depth < maxNestingDepth := by
  obtain ⟨protocol, hprotocol⟩ := h.semanticProtocol
  obtain ⟨conversationId, hconversationId⟩ := h.conversationId
  obtain ⟨im, decoded, hmsg, -, hanswers⟩ := hanswered
  rw [newInteractionMessage_replyTo hpb h helements,
    frameOf_getReplyFrame h hprotocol hconversationId] at hmsg
  split at hmsg
  next hdepth =>
    split at hmsg
    next decoded' hread =>
      split at hread
      next hmembers =>
        obtain ⟨replyBy, -, hread⟩ := Option.bind_eq_some_iff.1 hread
        obtain ⟨receiver, hreceiver, -⟩ := Option.map_eq_some_iff.1 hread
        refine ⟨{
          members := hmembers
          sender := closed_of_conversationMemberOf h.sender hreceiver
          replyBy := fun x hx => ?_ }, by omega⟩
        -- the number that was read is the one the answer has
        rcases hanswers.replyBy with ⟨hnull, -⟩ | ⟨x', hx', hparse⟩
        · rw [hnull] at hx
          cases hx
        · rw [hx'] at hx
          cases hx
          exact ⟨decoded.replyBy.toNat, UInt32.toNat_lt_size _, hparse⟩
      next => cases hread
    next => cases hmsg
  next => cases hmsg

theorem answered_of_closed (hF : Exact F UInt32.size) (hpb : pb.ReadsFields F)
    (h : Incoming frame) (helements : (Json.arr (interactionElements.getD [])).Canonical)
    (hclosed : Closed frame)
    (hdepth : (Json.arr (interactionElements.getD [])).depth < maxNestingDepth) :
    Answered pb skill uuid frame type interactionElements := by
  obtain ⟨protocol, hprotocol⟩ := h.semanticProtocol
  obtain ⟨conversationId, hconversationId⟩ := h.conversationId
  have hshallow : (Json.obj (getReplyFrame skill uuid frame type)).depth ≤ 3 :=
    depth_getReplyFrame h hclosed
  have hmax : (3 : ℕ) < maxNestingDepth := by decide
  obtain ⟨replyBy, huint32, hsame⟩ := replyBy_of_closed hF h hclosed
  obtain ⟨identification, role, hmember, hsender⟩ :=
    conversationMemberOf_of_closed h.sender hclosed.sender
  let decoded : Frame :=
    { semanticProtocol := protocol
      type := type
      messageId := uuid
      replyBy := replyBy
      receiver := some { identification := some identification, role := some role }
      sender := some skill.member
      conversationId := conversationId }
  have hanswers : Answers skill frame type decoded := {
    receiver := ⟨identification, role, hmember, rfl⟩
    sender := rfl
    type := rfl
    conversationId := hconversationId
    semanticProtocol := hprotocol
    replyBy := hsame }
  refine ⟨{
    frame := some decoded
    interactionElements := marshal (.arr (interactionElements.getD [])) }, decoded, ?_, rfl,
    hanswers⟩
  rw [newInteractionMessage_replyTo hpb h helements, if_pos (by omega),
    frameOf_getReplyFrame h hprotocol hconversationId, if_pos hclosed.members, huint32, hsender]
  rfl

end

theorem answered_iff (hF : Exact F UInt32.size) {pb : Jsonpb} (hpb : pb.ReadsFields F)
    {skill : SkillIdentification} {uuid type : String} {frame : List (String × Json F)}
    {interactionElements : Option (List (Json F))} (h : Incoming frame)
    (helements : (Json.arr (interactionElements.getD [])).Canonical) :
    Answered pb skill uuid frame type interactionElements ↔
      Closed frame ∧ (Json.arr (interactionElements.getD [])).depth < maxNestingDepth :=
  ⟨closed_of_answered hpb h helements,
    fun hclosed => answered_of_closed hF hpb h helements hclosed.1 hclosed.2⟩

/-! A message to a central repository, also with a member that the API of the https ingress
has and the protobuf frame has not, and with a time in milliseconds. -/

def repository : SkillIdentification :=
  { id := "central/repository", idType := "IRI", role := "CentralAssetRepository" }

def operatorMember (role : String) : Json ℕ :=
  .obj
    [("identification", .obj [("id", .str "operator/aas"), ("idType", .str "IRI")]),
     ("role", .obj [("name", .str role)])]

def publishFrame (replyBy : ℕ) (further : List (String × Json ℕ)) : List (String × Json ℕ) :=
  ofMembers
    ([("semanticProtocol", .str "i40"), ("type", .str "publishInstance"),
      ("messageId", .str "m1"), ("replyBy", .num replyBy),
      ("receiver", operatorMember "CentralAssetRepository"),
      ("sender", operatorMember "Operator"), ("conversationId", .str "c1")] ++ further)

def inReplyTo : List (String × Json ℕ) :=
  [("inReplyTo", .str "m0")]

theorem incoming_publishFrame (replyBy : ℕ) {further : List (String × Json ℕ)}
    (h : further = [] ∨ further = inReplyTo) : Incoming (publishFrame replyBy further) := by
  have hfurther : CanonicalMembers further := by
    rcases h with rfl | rfl <;> simp [inReplyTo, CanonicalMembers, Canonical]
  have hindex : ∀ k, index (publishFrame replyBy further) k =
      index ([("semanticProtocol", .str "i40"), ("type", .str "publishInstance"),
        ("messageId", .str "m1"), ("replyBy", .num replyBy),
        ("receiver", operatorMember "CentralAssetRepository"),
        ("sender", operatorMember "Operator"), ("conversationId", .str "c1")] ++ further) k := by
    intro k
    apply index_ofMembers
    rcases h with rfl | rfl <;> simp [inReplyTo]
  exact {
    canonical := by
      refine ⟨ofMembers_sorted _, ofMembers_canonical ?_⟩
      have hmember : ∀ role, (operatorMember role).Canonical := canonical_member _ _
      simp [CanonicalMembers, Canonical, hmember, hfurther]
    semanticProtocol := ⟨_, hindex _⟩
    type := ⟨_, hindex _⟩
    messageId := ⟨_, hindex _⟩
    conversationId := ⟨_, hindex _⟩
    sender := by rw [hindex]; exact ⟨⟨_, rfl⟩, ⟨_, rfl⟩⟩
    receiver := by rw [hindex]; exact ⟨⟨_, rfl⟩, ⟨_, rfl⟩⟩
    replyBy := .inr ⟨replyBy, replyBy, hindex _, natOf_decimal replyBy⟩ }

theorem answered_iff_publishFrame :
    Answered Jsonpb.standard repository "m2" (publishFrame 29993912 []) "error" none ↔
      Closed (publishFrame 29993912 []) ∧
        (Json.arr ((none : Option (List (Json ℕ))).getD [])).depth < maxNestingDepth :=
  answered_iff (exact_nat _) Jsonpb.standard_readsFields (incoming_publishFrame _ (.inl rfl))
    trivial

/-- Neither reply is accepted. -/
theorem not_answered_publishFrame :
    (passes (.obj (publishFrame 29993912 inReplyTo)) = true ∧
      Incoming (publishFrame 29993912 inReplyTo) ∧
      ¬ Answered Jsonpb.standard repository "m2" (publishFrame 29993912 inReplyTo) "error" none) ∧
    (passes (.obj (publishFrame 1600000000000 [])) = true ∧
      Incoming (publishFrame 1600000000000 []) ∧
      ¬ Answered Jsonpb.standard repository "m2" (publishFrame 1600000000000 []) "error" none) := by
  have hmember : newInteractionMessage ℕ Jsonpb.standard
      (.bytes (replyTo repository "m2" (publishFrame 29993912 inReplyTo) "error" none)) =
      .error .jsonpb := by
    decide +kernel
  have hnumber : newInteractionMessage ℕ Jsonpb.standard
      (.bytes (replyTo repository "m2" (publishFrame 1600000000000 []) "error" none)) =
      .error .jsonpb := by
    decide +kernel
  refine ⟨⟨by decide +kernel, incoming_publishFrame _ (.inr rfl), ?_⟩,
    ⟨by decide +kernel, incoming_publishFrame _ (.inl rfl), ?_⟩⟩
  · rintro ⟨im, -, hmsg, -, -⟩
    rw [hmember] at hmsg
    cases hmsg
  · rintro ⟨im, -, hmsg, -, -⟩
    rw [hnumber] at hmsg
    cases hmsg

end I40Aas.OnboardingSkill
