import I40Aas.EndpointResolver.Resolver
import I40Aas.Interaction.Conversion

/-!
The copy of a message that names a descriptor as its receiver. The id goes through
`json.Marshal` and loses its quotes again, but not the escapes in between, so the
copy has exactly the id of the descriptor when no character of it is escaped
(`published_names_descriptor_iff`). Everything else of the message is kept.
-/

namespace I40Aas.EndpointResolver

open I40Aas.Lib I40Aas.Lib.Json I40Aas.Interaction

/-! Texts without a character that `json.Marshal` escapes. -/

def PlainChar (c : Char) : Prop :=
  32 ≤ c.toNat ∧ c ∉ ['"', '\\', '<', '>', '&'] ∧ c.toNat ≠ 0x2028 ∧ c.toNat ≠ 0x2029

instance (c : Char) : Decidable (PlainChar c) :=
  inferInstanceAs (Decidable (_ ∧ _ ∧ _ ∧ _))

def Plain (s : String) : Prop :=
  ∀ c ∈ s.toList, PlainChar c

instance (s : String) : Decidable (Plain s) :=
  inferInstanceAs (Decidable (∀ c ∈ s.toList, PlainChar c))

/-- One character, marshalled and without quotes. -/
def marshalledChar (c : Char) : List Char :=
  (escapeChar c).filter (· ≠ '"')

theorem marshalledChar_plain {c : Char} (h : PlainChar c) : marshalledChar c = [c] := by
  obtain ⟨hlow, hspecial, h28, h29⟩ := h
  simp only [List.mem_cons, List.not_mem_nil, or_false, not_or] at hspecial
  obtain ⟨hquote, hback, hlt, hgt, hamp⟩ := hspecial
  have hn : c ≠ '\n' := by rintro rfl; exact absurd hlow (by decide)
  have hr : c ≠ '\r' := by rintro rfl; exact absurd hlow (by decide)
  have ht : c ≠ '\t' := by rintro rfl; exact absurd hlow (by decide)
  have hescape : escapeChar c = [c] := by
    unfold escapeChar
    rw [if_neg (by simp [hquote, hback]), if_neg (by omega), if_neg (by omega), if_neg hn,
      if_neg hr, if_neg ht, if_neg (by simp [hlt, hgt, hamp]; omega),
      if_neg (by simp [h28, h29])]
  simp [marshalledChar, hescape, hquote]

/-- Another character becomes a lone backslash or grows. -/
theorem marshalledChar_escaped {c : Char} (h : ¬ PlainChar c) :
    (c = '"' ∧ marshalledChar c = ['\\']) ∨ 2 ≤ (marshalledChar c).length := by
  unfold marshalledChar escapeChar
  split
  next hc =>
    rcases hc with rfl | rfl
    · exact .inl ⟨rfl, by decide⟩
    · exact .inr (by decide)
  split
  next => exact .inr (by decide)
  split
  next => exact .inr (by decide)
  split
  next => exact .inr (by decide)
  split
  next => exact .inr (by decide)
  split
  next => exact .inr (by decide)
  split
  next => exact .inr (by simp)
  split
  next => exact .inr (by simp)
  next hquote h8 h12 hn hr ht hlow hline =>
    refine absurd ⟨by omega, ?_, fun h => hline (.inl h), fun h => hline (.inr h)⟩ h
    simp only [List.mem_cons, List.not_mem_nil, or_false]
    grind

theorem length_marshalledChar_pos (c : Char) : 0 < (marshalledChar c).length := by
  by_cases h : PlainChar c
  · simp [marshalledChar_plain h]
  · cases marshalledChar_escaped h with
    | inl hc => simp [hc.2]
    | inr hc => omega

theorem length_le_flatMap_marshalledChar (s : List Char) :
    s.length ≤ (s.flatMap marshalledChar).length := by
  induction s with
  | nil => simp
  | cons c s ih =>
      have := length_marshalledChar_pos c
      rw [List.flatMap_cons, List.length_append, List.length_cons]
      omega

theorem flatMap_marshalledChar_eq_iff (s : List Char) :
    s.flatMap marshalledChar = s ↔ ∀ c ∈ s, PlainChar c := by
  induction s with
  | nil => simp
  | cons c s ih =>
      rw [List.flatMap_cons, List.forall_mem_cons]
      by_cases hc : PlainChar c
      · simp [marshalledChar_plain hc, ih, hc]
      · simp only [hc, false_and, iff_false]
        intro heq
        -- a quote changes in place, everything else pushes the rest to the back
        cases marshalledChar_escaped hc with
        | inl hquote =>
            rw [hquote.2, hquote.1] at heq
            exact absurd (List.cons.inj heq).1 (by decide)
        | inr hlong =>
            have hlength := congrArg List.length heq
            have hrest := length_le_flatMap_marshalledChar s
            rw [List.length_append, List.length_cons] at hlength
            omega

variable {F : Type} [FloatFormat F]

theorem filter_quote (s : String) :
    (quote s).filter (· ≠ '"') = s.toList.flatMap marshalledChar := by
  have hmarshalled : marshalledChar = fun c => (escapeChar c).filter (· ≠ '"') := rfl
  simp [quote, escape, List.filter_flatMap, hmarshalled]

theorem withoutQuotes_str (s : String) :
    withoutQuotes (.str s : Json F) = String.ofList (s.toList.flatMap marshalledChar) := by
  rw [withoutQuotes, encode, text, filter_quote]

theorem withoutQuotes_eq_iff (s : String) :
    withoutQuotes (.str s : Json F) = s ↔ Plain s := by
  rw [withoutQuotes_str, Plain, ← flatMap_marshalledChar_eq_iff]
  constructor
  · intro h
    have := congrArg String.toList h
    rwa [String.toList_ofList] at this
  · intro h
    rw [h, String.ofList_toList]

/-! The copy. -/

def withReceiverId (frame : Frame) (receiver : ConversationMember) (id idType : String) :
    Frame :=
  { frame with
    receiver := some { receiver with
      identification := some { id := id, idType := idType } } }

/-- Only jsonpb can refuse to write the copy. -/
theorem rewriteReceiver_eq {env : Env F} {msg : List UInt8} {iMsg : InteractionMessage}
    {frame : Frame} {receiver : ConversationMember}
    {aasDescriptor identification : List (String × Json F)}
    (hmsg : newInteractionMessage F env.jsonpb (.bytes msg) = .ok iMsg)
    (hframe : iMsg.frame = some frame) (hreceiver : frame.receiver = some receiver)
    (hid : index aasDescriptor "identification" = .obj identification) :
    rewriteReceiver env msg aasDescriptor =
      match env.jsonpb.marshalToString (some (withReceiverId frame receiver
        (withoutQuotes (index identification "id"))
        (withoutQuotes (index identification "idType")))) with
      | .ok frameJSON => .ok (concatMessage frameJSON iMsg.interactionElements)
      | .error e => .error (.err e) := by
  obtain ⟨dat, _, es, _, hdat, -, -, hes, himsg⟩ := fromRawJSON_ok hmsg
  have hmap : unmarshalMap F msg = .ok dat := by rw [unmarshalMap, hdat]
  have helements := congrArg InteractionMessage.interactionElements himsg
  obtain ⟨frame', elements⟩ := iMsg
  cases hframe
  cases helements
  unfold rewriteReceiver
  simp only [hid, hmsg, hreceiver, hmap, hes]
  rfl

theorem rewriteReceiver_ok {env : Env F} {msg payload : List UInt8}
    {aasDescriptor : List (String × Json F)}
    (h : rewriteReceiver env msg aasDescriptor = .ok payload) :
    ∃ identification iMsg frame receiver frameJSON,
      index aasDescriptor "identification" = .obj identification ∧
      newInteractionMessage F env.jsonpb (.bytes msg) = .ok iMsg ∧
      iMsg.frame = some frame ∧ frame.receiver = some receiver ∧
      env.jsonpb.marshalToString (some (withReceiverId frame receiver
        (withoutQuotes (index identification "id"))
        (withoutQuotes (index identification "idType")))) = .ok frameJSON ∧
      payload = concatMessage frameJSON iMsg.interactionElements := by
  have hcases := h
  unfold rewriteReceiver at hcases
  split at hcases
  next identification hid =>
    split at hcases
    next frame elements hmsg =>
      split at hcases
      next receiver hreceiver =>
        rw [rewriteReceiver_eq hmsg rfl hreceiver hid] at h
        split at h
        next frameJSON hframeJSON =>
          cases h
          exact ⟨identification, _, frame, receiver, frameJSON, hid, hmsg, rfl, hreceiver,
            hframeJSON, rfl⟩
        next => cases h
      next => cases hcases
    next => cases hcases
  next => cases hcases

/-- The payload is the message with this receiver id. -/
structure Names (F : Type) [FloatFormat F] (pb : Jsonpb) (payload : List UInt8)
    (iMsg : InteractionMessage) (frame : Frame) (receiver : ConversationMember)
    (id idType : String) (iMsg' : InteractionMessage) : Prop where
  accepted : newInteractionMessage F pb (.bytes payload) = .ok iMsg'
  frame : iMsg'.frame = some (withReceiverId frame receiver id idType)
  interactionElements : JsonEqual F iMsg'.interactionElements iMsg.interactionElements

/-- The copy is read back with the id as it was put in. -/
theorem rewriteReceiver_names {env : Env F} (hpb : env.jsonpb.RoundTrips F)
    {msg payload : List UInt8} {iMsg : InteractionMessage} {frame : Frame}
    {receiver : ConversationMember} {aasDescriptor identification : List (String × Json F)}
    (hmsg : newInteractionMessage F env.jsonpb (.bytes msg) = .ok iMsg)
    (hframe : iMsg.frame = some frame) (hreceiver : frame.receiver = some receiver)
    (hid : index aasDescriptor "identification" = .obj identification)
    (h : rewriteReceiver env msg aasDescriptor = .ok payload) :
    ∃ iMsg', Names F env.jsonpb payload iMsg frame receiver
      (withoutQuotes (index identification "id"))
      (withoutQuotes (index identification "idType")) iMsg' := by
  rw [rewriteReceiver_eq hmsg hframe hreceiver hid] at h
  split at h
  next frameJSON hframeJSON =>
    cases h
    let copy : InteractionMessage :=
      { frame := some (withReceiverId frame receiver (withoutQuotes (index identification "id"))
          (withoutQuotes (index identification "idType")))
        interactionElements := iMsg.interactionElements }
    have hcopy : env.jsonpb.marshalToString copy.frame = .ok frameJSON := hframeJSON
    have harray : IsArrayText F iMsg.interactionElements :=
      isArrayText_of_newInteractionMessage hmsg
    obtain ⟨iMsg', hdecodes⟩ := decodes_of_isArrayText hpb hcopy harray
    exact ⟨iMsg', {
      accepted := hdecodes.accepted
      frame := hdecodes.frame
      interactionElements := hdecodes.interactionElements }⟩
  next => cases h

theorem names_iff {env : Env F} (hpb : env.jsonpb.RoundTrips F)
    {msg payload : List UInt8} {iMsg : InteractionMessage} {frame : Frame}
    {receiver : ConversationMember} {aasDescriptor identification : List (String × Json F)}
    {id idType : String}
    (hmsg : newInteractionMessage F env.jsonpb (.bytes msg) = .ok iMsg)
    (hframe : iMsg.frame = some frame) (hreceiver : frame.receiver = some receiver)
    (hidentification : index aasDescriptor "identification" = .obj identification)
    (hid : index identification "id" = .str id)
    (hidType : index identification "idType" = .str idType)
    (h : rewriteReceiver env msg aasDescriptor = .ok payload) :
    (∃ iMsg', Names F env.jsonpb payload iMsg frame receiver id idType iMsg') ↔
      Plain id ∧ Plain idType := by
  obtain ⟨read, hread⟩ := rewriteReceiver_names hpb hmsg hframe hreceiver hidentification h
  rw [hid, hidType] at hread
  constructor
  -- the payload is read in one way only, so both readings have the same receiver
  · rintro ⟨iMsg', hnames⟩
    have hsame : read = iMsg' := by
      have := hread.accepted.symm.trans hnames.accepted
      exact Except.ok.inj this
    subst hsame
    have hframes := Option.some.inj (hread.frame.symm.trans hnames.frame)
    simp only [withReceiverId, Frame.mk.injEq, Option.some.injEq, ConversationMember.mk.injEq,
      Identification.mk.injEq, true_and, and_true] at hframes
    exact ⟨(withoutQuotes_eq_iff id).1 hframes.1, (withoutQuotes_eq_iff idType).1 hframes.2⟩
  · rintro ⟨hplain, hplainType⟩
    rw [(withoutQuotes_eq_iff id).2 hplain, (withoutQuotes_eq_iff idType).2 hplainType] at hread
    exact ⟨read, hread⟩

/-- Every message that is published for a message without receiver id. -/
theorem published_names_descriptor_iff {env : Env F} (hpb : env.jsonpb.RoundTrips F)
    {msg : List UInt8} {iMsg : InteractionMessage} {frame : Frame}
    {receiver : ConversationMember}
    (hmsg : newInteractionMessage F env.jsonpb (.bytes msg) = .ok iMsg)
    (hframe : iMsg.frame = some frame) (hreceiver : frame.receiver = some receiver)
    (hunnamed : receiverId receiver = none)
    {p : Publication F} (hp : p ∈ (processGenericEgressMsg env msg).1)
    {identification : List (String × Json F)} {id idType : String}
    (hidentification : index p.aasDescriptor "identification" = .obj identification)
    (hid : index identification "id" = .str id)
    (hidType : index identification "idType" = .str idType) :
    (∃ iMsg', Names F env.jsonpb p.resolverMsg.egressPayload iMsg frame receiver id idType
      iMsg') ↔ Plain id ∧ Plain idType := by
  obtain ⟨iMsg₀, frame₀, hmsg₀, hframe₀, hpublished⟩ := publishedFor_of_mem hp
  obtain rfl : iMsg = iMsg₀ := Except.ok.inj (hmsg.symm.trans hmsg₀)
  obtain rfl : frame = frame₀ := Option.some.inj (hframe.symm.trans hframe₀)
  have hpayload := hpublished.payload
  simp only [egressPayload, hreceiver, hunnamed] at hpayload
  exact names_iff hpb hmsg hframe hreceiver hidentification hid hidType hpayload

/-! A message to whoever has the role, and a registry that knows one such shell. -/

def oneElement : List UInt8 :=
  marshal (.arr [.num 1] : Json Digit)

def roleMessage : List UInt8 :=
  marshal (.obj
    [("frame", .obj
      [("receiver", .obj [("role", .obj [("name", .str "Operator")])]),
       ("semanticProtocol", .str "i40")]),
     ("interactionElements", .arr [.num 1])] : Json Digit)

def roleReceiver (identification : Option Identification) : ConversationMember :=
  { identification := identification, role := some { name := "Operator" } }

def roleFrame (identification : Option Identification) : Frame :=
  { semanticProtocol := "i40"
    type := ""
    messageId := ""
    replyBy := 0
    receiver := some (roleReceiver identification)
    sender := none
    conversationId := "" }

def shellEndpoint : List (String × Json Digit) :=
  [("address", .str "https://shell"), ("password", .null), ("type", .str "https"),
   ("user", .null)]

def shell (id : String) : List (String × Json Digit) :=
  [("descriptor", .obj [("endpoints", .arr [.obj shellEndpoint])]),
   ("identification", .obj [("id", .str id), ("idType", .str "IRI")])]

/-- The frame of the copy, as jsonpb prints it. -/
def copyFrameText (copyId : String) : List UInt8 :=
  marshal (.obj
    [("semanticProtocol", .str "i40"),
     ("receiver", .obj
      [("identification", .obj [("id", .str copyId), ("idType", .str "IRI")]),
       ("role", .obj [("name", .str "Operator")])])] : Json Digit)

def shellFrames (copyId : String) : List (Frame × List UInt8) :=
  [(roleFrame none,
    marshal (.obj
      [("semanticProtocol", .str "i40"),
       ("receiver", .obj [("role", .obj [("name", .str "Operator")])])] : Json Digit)),
   (roleFrame (some { id := copyId, idType := "IRI" }), copyFrameText copyId)]

/-- `copyId` is the id that the copy of the message gets. -/
def shellEnv (id copyId : String) : Env Digit :=
  { jsonpb := Jsonpb.ofTable Digit (shellFrames copyId)
    sprintNumber := fun n => String.ofList (Digit.literal n).val
    certificateParses := fun _ => false
    queryEndpointRegistry := fun _ => .ok (marshal (.arr [.obj (shell id)]))
    publish := fun _ _ _ => true }

def shellPublication (id copyId : String) : Publication Digit :=
  { aasDescriptor := shell id
    endpoint := shellEndpoint
    routingKey := "egress.http"
    resolverMsg := resolverMsg (shellEnv id copyId) shellEndpoint
      (concatMessage (copyFrameText copyId) (oneElement)) }

theorem published_names_descriptor_iff_urn :
    (∃ iMsg', Names Digit (shellEnv "urn:a" "urn:a").jsonpb
      (shellPublication "urn:a" "urn:a").resolverMsg.egressPayload
      { frame := some (roleFrame none), interactionElements := oneElement }
      (roleFrame none) (roleReceiver none) "urn:a" "IRI" iMsg') ↔
    Plain "urn:a" ∧ Plain "IRI" := by
  have hpb : (Jsonpb.ofTable Digit (shellFrames "urn:a")).RoundTrips Digit :=
    Jsonpb.ofTable_roundTrips (by decide +kernel)
  have hmsg : newInteractionMessage Digit (shellEnv "urn:a" "urn:a").jsonpb
      (.bytes roleMessage) =
      .ok { frame := some (roleFrame none), interactionElements := oneElement } := by
    decide +kernel
  have hp : shellPublication "urn:a" "urn:a" ∈
      (processGenericEgressMsg (shellEnv "urn:a" "urn:a") roleMessage).1 := by
    decide +kernel
  exact published_names_descriptor_iff hpb hmsg rfl rfl rfl hp rfl rfl rfl

def ampersandId : String := "urn:a\\u0026b"

/-- The escape of the ampersand stays in the id that the receiver reads. -/
theorem not_published_names_descriptor_ampersand :
    shellPublication "urn:a&b" ampersandId ∈
      (processGenericEgressMsg (shellEnv "urn:a&b" ampersandId) roleMessage).1 ∧
    newInteractionMessage Digit (shellEnv "urn:a&b" ampersandId).jsonpb
        (.bytes (shellPublication "urn:a&b" ampersandId).resolverMsg.egressPayload) =
      .ok { frame := some (roleFrame (some { id := ampersandId, idType := "IRI" }))
            interactionElements := oneElement } ∧
    ¬ ∃ iMsg', Names Digit (shellEnv "urn:a&b" ampersandId).jsonpb
      (shellPublication "urn:a&b" ampersandId).resolverMsg.egressPayload
      { frame := some (roleFrame none), interactionElements := oneElement }
      (roleFrame none) (roleReceiver none) "urn:a&b" "IRI" iMsg' := by
  have hread : newInteractionMessage Digit (shellEnv "urn:a&b" ampersandId).jsonpb
      (.bytes (shellPublication "urn:a&b" ampersandId).resolverMsg.egressPayload) =
      .ok { frame := some (roleFrame (some { id := ampersandId, idType := "IRI" }))
            interactionElements := oneElement } := by
    decide +kernel
  refine ⟨by decide +kernel, hread, ?_⟩
  rintro ⟨iMsg', hnames⟩
  have hframe := hnames.frame
  rw [← Except.ok.inj (hread.symm.trans hnames.accepted)] at hframe
  exact absurd hframe (by decide)

end I40Aas.EndpointResolver
