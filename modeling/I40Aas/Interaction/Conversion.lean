import I40Aas.Interaction.Message

/-!
What `ToString` promises to the consumers of a message. It puts the bytes of the
interaction elements between the frame and the closing brace as they are, so the
text is the message again exactly when these bytes are an array by themselves
(`toString_decodes_iff`). Other bytes can end the array and go on with members of
their own, and a second `frame` member replaces the first one.
-/

namespace I40Aas.Interaction

open I40Aas.Lib I40Aas.Lib.Json

/-! The consumer loop of the gRPC ingress. -/

/-- Nothing is read through a nil receiver or role. -/
def routingKey (exchange : String) (f : Frame) : Option String := do
  let receiver ← f.receiver
  let role ← receiver.role
  return exchange ++ "." ++ f.semanticProtocol ++ "." ++ role.name ++ "." ++ f.type

inductive Consumed
  | skipped (err : Error)
  | panic
  | publish (routingKey : String) (jsonMessage : List UInt8)
  deriving DecidableEq, Repr

def consume (pb : Jsonpb) (exchange : String) (msg : InteractionMessage) : Consumed :=
  match msg.toRawJSON pb with
  | .error err => .skipped err
  | .ok jsonMessage =>
    match msg.frame.bind (routingKey exchange) with
    | some key => .publish key jsonMessage
    | none => .panic

section

variable (F : Type) [FloatFormat F] (pb : Jsonpb)

/-- The text is accepted and is the message again. -/
structure DecodesTo (text : List UInt8) (im im' : InteractionMessage) : Prop where
  accepted : fromRawJSON F pb text = .ok im'
  frame : im'.frame = im.frame
  interactionElements : JsonEqual F im'.interactionElements im.interactionElements
  routed : ∀ exchange key, consume pb exchange im = .publish key text →
    im'.frame.bind (routingKey exchange) = some key

/-- JSON text of an array that has room for one more level. -/
def IsArrayText (elements : List UInt8) : Prop :=
  ∃ es : List (Json Literal), read elements = some (.arr es) ∧
    (Json.arr es).depth < maxNestingDepth ∧ (decode (.arr es) : Option (Json F)).isSome

end

section

variable {F : Type} [FloatFormat F] {pb : Jsonpb}

theorem toString_ok {im : InteractionMessage} {text : List UInt8}
    (h : im.toString pb = .ok text) :
    ∃ jsonFrame, pb.marshalToString im.frame = .ok jsonFrame ∧
      text = concatMessage jsonFrame im.interactionElements := by
  unfold InteractionMessage.toString at h
  cases hframe : pb.marshalToString im.frame with
  | error e => simp [hframe, bind, Except.bind] at h
  | ok jsonFrame =>
      simp only [hframe, bind, Except.bind] at h
      split at h
      next => cases h
      next => cases h; exact ⟨jsonFrame, rfl, rfl⟩

theorem toRawJSON_eq (im : InteractionMessage) : im.toRawJSON pb = im.toString pb := by
  unfold InteractionMessage.toRawJSON
  cases im.toString pb <;> rfl

theorem consume_publish {exchange key : String} {im : InteractionMessage}
    {text : List UInt8} (h : consume pb exchange im = .publish key text) :
    im.frame.bind (routingKey exchange) = some key := by
  unfold consume at h
  split at h
  next => cases h
  next =>
    split at h
    next hkey => cases h; exact hkey
    next => cases h

theorem decode_arr {es : List (Json Literal)} {v : Json F}
    (h : decode (.arr es) = some v) : ∃ vs, v = .arr vs := by
  obtain ⟨vs, -, rfl⟩ := Option.map_eq_some_iff.1 h
  exact ⟨vs, rfl⟩

theorem eq_arr_of_decode {t : Json Literal} {vs : List (Json F)}
    (h : decode t = some (.arr vs)) : ∃ es, t = .arr es := by
  cases t with
  | arr es => exact ⟨es, rfl⟩
  | num l => simp [decode] at h
  | obj ms => simp [decode] at h
  | _ => cases h

/-- Read on its own, an array text has the value that it is decoded to. -/
theorem unmarshal_arr {elements : List UInt8} {es : List (Json Literal)}
    {vs : List (Json F)} (hread : read elements = some (.arr es))
    (hdepth : (Json.arr es).depth < maxNestingDepth)
    (hvs : decode (.arr es) = some (.arr vs)) : unmarshal elements = some (Json.arr vs) :=
  (unmarshal_eq_some_iff _ _).2 ⟨_, hread, Nat.le_of_lt hdepth, hvs⟩

/-- The interaction elements of a message that was read are read again as they are. -/
theorem elements_of_message {msg : List UInt8} {dat : List (String × Json F)}
    {es : List (Json F)} (hdat : unmarshal msg = some (.obj dat))
    (hes : index dat "interactionElements" = .arr es) :
    (Json.arr es).Canonical ∧ (Json.arr es).depth < maxNestingDepth := by
  obtain ⟨hcanonical, hdepth⟩ := unmarshal_canonical hdat
  have hindex := index_canonical hcanonical.2 "interactionElements"
  have hle := depth_index_le dat "interactionElements"
  rw [hes] at hindex hle
  refine ⟨hindex, ?_⟩
  rw [depth] at hdepth
  omega

/-- The interaction elements of a message that was read are the text of an array. -/
theorem isArrayText_of_newInteractionMessage {text : List UInt8} {im : InteractionMessage}
    (h : newInteractionMessage F pb (.bytes text) = .ok im) :
    IsArrayText F im.interactionElements := by
  obtain ⟨dat, _, es, _, hdat, -, -, hes, rfl⟩ := fromRawJSON_ok h
  obtain ⟨hcanonical, hdepth⟩ := elements_of_message hdat hes
  have hread : read (marshal (.arr es)) = some (.arr (encodeElements es)) := read_text _
  refine ⟨encodeElements es, hread, ?_, ?_⟩
  · have hsame := depth_encode (Json.arr es)
    rw [encode] at hsame
    omega
  · have hdecode := decode_encode (.arr es) hcanonical
    rw [encode] at hdecode
    rw [hdecode]
    rfl

theorem decodes_of_isArrayText (hpb : pb.RoundTrips F) {im : InteractionMessage}
    {jsonFrame : List UInt8} (hframe : pb.marshalToString im.frame = .ok jsonFrame)
    (h : IsArrayText F im.interactionElements) :
    ∃ im', DecodesTo F pb (concatMessage jsonFrame im.interactionElements) im im' := by
  obtain ⟨es, hread, hdepth, hdecode⟩ := h
  obtain ⟨v, hv⟩ := Option.isSome_iff_exists.1 hdecode
  obtain ⟨vs, rfl⟩ := decode_arr hv
  have helements := unmarshal_arr hread hdepth hv
  obtain ⟨hcanonical, hdepth'⟩ := unmarshal_canonical helements
  have hrouted : ∀ exchange key, consume pb exchange im = .publish key
      (concatMessage jsonFrame im.interactionElements) →
      im.frame.bind (routingKey exchange) = some key := fun _ _ h => consume_publish h
  exact ⟨_, {
    accepted := fromRawJSON_concatMessage hpb hframe hread hdepth hv
    frame := rfl
    interactionElements := ⟨_, unmarshal_marshal hcanonical hdepth', helements⟩
    routed := hrouted }⟩

theorem isArrayText_of_decodes (hpb : pb.RoundTrips F) {im im' : InteractionMessage}
    {jsonFrame : List UInt8} (hframe : pb.marshalToString im.frame = .ok jsonFrame)
    (h : DecodesTo F pb (concatMessage jsonFrame im.interactionElements) im im') :
    IsArrayText F im.interactionElements := by
  obtain ⟨-, t, ms, -, hread, -, hms, -⟩ := hpb _ _ hframe
  obtain ⟨dat, frame, vs, protoFrame, hdat, -, -, hindex, rfl⟩ := fromRawJSON_ok h.accepted
  obtain ⟨v, hleft, hright⟩ := h.interactionElements
  obtain ⟨u, hu, -, huv⟩ := (unmarshal_eq_some_iff _ _).1 hright
  obtain ⟨whole, hwhole, hdepth, hdecode⟩ := (unmarshal_eq_some_iff _ _).1 hdat
  -- the bytes are read on their own, so the text as a whole has two members
  rw [read_concatMessage hread hu] at hwhole
  cases hwhole
  rw [decode_message hms huv] at hdecode
  cases hdecode
  rw [index_interactionElements] at hindex
  subst hindex
  obtain ⟨es, rfl⟩ := eq_arr_of_decode huv
  refine ⟨es, hu, ?_, by rw [huv]; rfl⟩
  simp only [depth, depthMembers] at hdepth ⊢
  omega

theorem toString_decodes_iff (hpb : pb.RoundTrips F) {im : InteractionMessage}
    {text : List UInt8} (h : im.toString pb = .ok text ∨ im.toRawJSON pb = .ok text) :
    (∃ im', DecodesTo F pb text im im') ↔ IsArrayText F im.interactionElements := by
  rw [toRawJSON_eq, or_self] at h
  obtain ⟨jsonFrame, hframe, rfl⟩ := toString_ok h
  constructor
  · rintro ⟨im', hdecodes⟩
    exact isArrayText_of_decodes hpb hframe hdecodes
  · exact decodes_of_isArrayText hpb hframe

end

/-! Two frames, and elements that end their array and bring the second frame. -/

def plainFrame (type : String) : Frame :=
  { semanticProtocol := "i40"
    type := type
    messageId := ""
    replyBy := 0
    receiver := none
    sender := none
    conversationId := "" }

def plainFrameText (type : String) : List UInt8 :=
  marshal (.obj [("semanticProtocol", .str "i40"), ("type", .str type)] : Json Digit)

def plainFrames : List (Frame × List UInt8) :=
  [(plainFrame "a", plainFrameText "a"), (plainFrame "b", plainFrameText "b")]

def plainMessage : InteractionMessage :=
  { frame := some (plainFrame "a")
    interactionElements := marshal (.arr [.obj [("n", .num (Fin.last 9))]] : Json Digit) }

def smuggledMessage : InteractionMessage :=
  { frame := some (plainFrame "a")
    interactionElements := goString "[],\"frame\":" ++ plainFrameText "b" }

theorem toString_decodes_iff_plain :
    (∃ im', DecodesTo Digit (Jsonpb.ofTable Digit plainFrames)
      (concatMessage (plainFrameText "a") plainMessage.interactionElements) plainMessage im') ↔
    IsArrayText Digit plainMessage.interactionElements := by
  have hpb : (Jsonpb.ofTable Digit plainFrames).RoundTrips Digit :=
    Jsonpb.ofTable_roundTrips (by decide +kernel)
  have htext : plainMessage.toString (Jsonpb.ofTable Digit plainFrames) =
      .ok (concatMessage (plainFrameText "a") plainMessage.interactionElements) := by
    decide +kernel
  exact toString_decodes_iff hpb (.inl htext)

/-- The text is accepted, with the frame that came in the elements. -/
theorem not_toString_decodes_smuggled :
    ∃ text, smuggledMessage.toString (Jsonpb.ofTable Digit plainFrames) = .ok text ∧
      fromRawJSON Digit (Jsonpb.ofTable Digit plainFrames) text =
        .ok { frame := some (plainFrame "b"), interactionElements := goString "[]" } ∧
      ¬ ∃ im', DecodesTo Digit (Jsonpb.ofTable Digit plainFrames) text smuggledMessage im' := by
  have hread : fromRawJSON Digit (Jsonpb.ofTable Digit plainFrames)
      (concatMessage (plainFrameText "a") smuggledMessage.interactionElements) =
      .ok { frame := some (plainFrame "b"), interactionElements := goString "[]" } := by
    decide +kernel
  refine ⟨_, by decide +kernel, hread, ?_⟩
  rintro ⟨im', hdecodes⟩
  have hframe := hdecodes.frame
  rw [← Except.ok.inj (hread.symm.trans hdecodes.accepted)] at hframe
  exact absurd hframe (by decide)

end I40Aas.Interaction
