import I40Aas.Lib.Json.Value

/-!
The package `interaction`: the messages of the gRPC interface and their JSON form. A
Go string or byte slice is a list of bytes, but the string fields of a frame, which
protobuf keeps valid, are text.

`jsonpb` is a parameter. `Jsonpb.RoundTrips` is all that is assumed of it: what it
prints for a frame is a shallow JSON object, and it reads that object back after
`encoding/json` has printed it anew.
-/

namespace I40Aas.Interaction

open I40Aas.Lib I40Aas.Lib.Json

structure Identification where
  id : String
  idType : String
  deriving DecidableEq, Repr

structure Role where
  name : String
  deriving DecidableEq, Repr

structure ConversationMember where
  identification : Option Identification
  role : Option Role
  deriving DecidableEq, Repr

structure Frame where
  semanticProtocol : String
  type : String
  messageId : String
  replyBy : UInt32
  receiver : Option ConversationMember
  sender : Option ConversationMember
  conversationId : String
  deriving DecidableEq, Repr

structure InteractionMessage where
  frame : Option Frame
  interactionElements : List UInt8
  deriving DecidableEq, Repr

inductive Error
  | encodingJson
  | jsonpb
  | errorf (text : String)
  deriving DecidableEq, Repr

structure Jsonpb where
  marshalToString : Option Frame → Except Error (List UInt8)
  unmarshalString : List UInt8 → Except Error Frame

def Jsonpb.RoundTrips (F : Type) [FloatFormat F] (pb : Jsonpb) : Prop :=
  ∀ frame text, pb.marshalToString frame = .ok text →
    ∃ protoFrame t, ∃ ms : List (String × Json F),
      frame = some protoFrame ∧ read text = some t ∧ t.depth < maxNestingDepth ∧
      decode t = some (.obj ms) ∧ pb.unmarshalString (marshal (.obj ms)) = .ok protoFrame

section

variable (F : Type) [FloatFormat F] (pb : Jsonpb)

/-- `json.Unmarshal` into a map, which `null` leaves empty. -/
def unmarshalMap (rawJSON : List UInt8) : Except Error (List (String × Json F)) :=
  match (unmarshal rawJSON : Option (Json F)) with
  | some (.obj dat) => .ok dat
  | some .null => .ok []
  | _ => .error .encodingJson

/-- Values that `json.Unmarshal` has read are always marshalled. -/
def fromRawJSON (rawJSON : List UInt8) : Except Error InteractionMessage := do
  let dat ← unmarshalMap F rawJSON
  match index dat "frame" with
  | .obj frame =>
    let protoFrame ← pb.unmarshalString (marshal (.obj frame))
    match index dat "interactionElements" with
    | .arr interactionElements =>
      return {
        frame := some protoFrame
        interactionElements := marshal (.arr interactionElements) }
    | _ =>
      throw (.errorf
        "rawJSON does not contain interactionElements or interactionElements is not an array")
  | _ => throw (.errorf "rawJSON does not contain frame or frame is not an object")

/-- Both texts are read, as one value. -/
def JsonEqual (a b : List UInt8) : Prop :=
  ∃ v : Json F, unmarshal a = some v ∧ unmarshal b = some v

def fromString (jsonString : List UInt8) : Except Error InteractionMessage :=
  fromRawJSON F pb jsonString

/-- The dynamic type of the argument. -/
inductive Source
  | bytes (v : List UInt8)
  | string (v : List UInt8)
  | other (type : String)

def newInteractionMessage : Source → Except Error InteractionMessage
  | .bytes v => fromRawJSON F pb v
  | .string v => fromString F pb v
  | .other type =>
    .error (.errorf ("type " ++ type ++ " cannot be converted to InteractionMessage"))

end

def goString (text : String) : List UInt8 :=
  Utf8.bytes text.toList

/-- `"{\"frame\":" + jsonFrame + ",\"interactionElements\":" + elements + "}"`. -/
def concatMessage (jsonFrame elements : List UInt8) : List UInt8 :=
  goString "\x7b\"frame\":" ++ jsonFrame ++ goString ",\"interactionElements\":" ++ elements ++
    goString "\x7d"

namespace InteractionMessage

def toString (pb : Jsonpb) (im : InteractionMessage) : Except Error (List UInt8) := do
  let jsonFrame ← pb.marshalToString im.frame
  if im.interactionElements = [] then
    throw (.errorf "InteractionElements cannot be nil")
  return concatMessage jsonFrame im.interactionElements

def toRawJSON (pb : Jsonpb) (im : InteractionMessage) : Except Error (List UInt8) := do
  let jsonString ← im.toString pb
  return jsonString

end InteractionMessage

/-! The message text as an object of two spliced members. -/

theorem concatMessage_eq (jsonFrame elements : List UInt8) :
    concatMessage jsonFrame elements =
      rawObject [("frame", jsonFrame), ("interactionElements", elements)] := by
  have hframe : goString "\x7b\"frame\":" = Utf8.bytes ('{' :: (quote "frame" ++ [':'])) := by
    decide +kernel
  have helements : goString ",\"interactionElements\":" =
      Utf8.bytes (',' :: (quote "interactionElements" ++ [':'])) := by
    decide +kernel
  have hclose : goString "\x7d" = Utf8.bytes ['}'] := by
    decide +kernel
  simp only [concatMessage, rawObject, rawMembers, hframe, helements, hclose,
    List.append_assoc]

theorem read_concatMessage {jsonFrame elements : List UInt8} {t u : Json Literal}
    (hframe : read jsonFrame = some t) (helements : read elements = some u) :
    read (concatMessage jsonFrame elements) =
      some (.obj [("frame", t), ("interactionElements", u)]) := by
  rw [concatMessage_eq]
  exact read_rawObject (.cons ⟨rfl, hframe⟩ (.cons ⟨rfl, helements⟩ .nil))

theorem index_frame {F : Type} (v w : Json F) :
    index [("frame", v), ("interactionElements", w)] "frame" = v := rfl

theorem index_interactionElements {F : Type} (v w : Json F) :
    index [("frame", v), ("interactionElements", w)] "interactionElements" = w := rfl

section

variable {F : Type} [FloatFormat F] {pb : Jsonpb}

theorem decode_message {t u : Json Literal} {v w : Json F} (ht : decode t = some v)
    (hu : decode u = some w) :
    decode (.obj [("frame", t), ("interactionElements", u)]) =
      some (.obj [("frame", v), ("interactionElements", w)]) := by
  have hsorted : Sorted [("frame", v), ("interactionElements", w)] :=
    sorted_pair (by decide) v w
  simp [decode, decodeMembers, ht, hu, ofMembers_of_sorted hsorted]

theorem unmarshalMap_concatMessage {jsonFrame elements : List UInt8} {t u : Json Literal}
    {v w : Json F} (hframe : read jsonFrame = some t) (ht : t.depth < maxNestingDepth)
    (hv : decode t = some v) (helements : read elements = some u)
    (hu : u.depth < maxNestingDepth) (hw : decode u = some w) :
    unmarshalMap F (concatMessage jsonFrame elements) =
      .ok [("frame", v), ("interactionElements", w)] := by
  have hdepth : (Json.obj [("frame", t), ("interactionElements", u)]).depth ≤
      maxNestingDepth := by
    simp only [depth, depthMembers]
    omega
  have hread : (unmarshal (concatMessage jsonFrame elements) : Option (Json F)) =
      some (.obj [("frame", v), ("interactionElements", w)]) :=
    (unmarshal_eq_some_iff _ _).2
      ⟨_, read_concatMessage hframe helements, hdepth, decode_message hv hw⟩
  rw [unmarshalMap, hread]

/-- A message whose frame jsonpb printed and whose elements are an array is read
back. -/
theorem fromRawJSON_concatMessage (hpb : pb.RoundTrips F) {frame : Option Frame}
    {jsonFrame elements : List UInt8} (hframe : pb.marshalToString frame = .ok jsonFrame)
    {es : List (Json Literal)} {vs : List (Json F)}
    (helements : read elements = some (.arr es))
    (hdepth : (Json.arr es).depth < maxNestingDepth)
    (hvs : decode (.arr es) = some (.arr vs)) :
    fromRawJSON F pb (concatMessage jsonFrame elements) =
      .ok { frame := frame, interactionElements := marshal (.arr vs) } := by
  obtain ⟨protoFrame, t, ms, rfl, hread, ht, hms, hunmarshal⟩ := hpb frame jsonFrame hframe
  have hdat := unmarshalMap_concatMessage hread ht hms helements hdepth hvs
  unfold fromRawJSON
  rw [hdat]
  simp only [Except.bind, bind, index_frame, index_interactionElements, hunmarshal, pure,
    Except.pure]

theorem unmarshalMap_ok {rawJSON : List UInt8} {dat : List (String × Json F)}
    (h : unmarshalMap F rawJSON = .ok dat) :
    unmarshal rawJSON = some (Json.obj dat) ∨ dat = [] := by
  unfold unmarshalMap at h
  split at h
  next hread =>
    cases h
    exact .inl hread
  next => cases h; exact .inr rfl
  next => cases h

/-- What is known of a text that was accepted. -/
theorem fromRawJSON_ok {rawJSON : List UInt8} {im : InteractionMessage}
    (h : fromRawJSON F pb rawJSON = .ok im) :
    ∃ (dat frame : List (String × Json F)) (vs : List (Json F)) (protoFrame : Frame),
      unmarshal rawJSON = some (.obj dat) ∧ index dat "frame" = .obj frame ∧
      pb.unmarshalString (marshal (.obj frame)) = .ok protoFrame ∧
      index dat "interactionElements" = .arr vs ∧
      im = { frame := some protoFrame, interactionElements := marshal (.arr vs) } := by
  unfold fromRawJSON at h
  cases hdat : unmarshalMap F rawJSON with
  | error e => simp [hdat, bind, Except.bind] at h
  | ok dat =>
      simp only [hdat, bind, Except.bind] at h
      split at h
      next frame hframe =>
        cases hproto : pb.unmarshalString (marshal (.obj frame)) with
        | error e => simp [hproto] at h
        | ok protoFrame =>
            simp only [hproto] at h
            split at h
            next vs hvs =>
              cases h
              refine ⟨dat, frame, vs, protoFrame, ?_, hframe, hproto, hvs, rfl⟩
              cases unmarshalMap_ok hdat with
              | inl hread => exact hread
              | inr hnil =>
                  subst hnil
                  cases hframe
            next => cases h
      next => cases h

/-! A jsonpb for the frames of a table. -/

/-- A frame is printed as the table has it, and read from what `encoding/json` makes
of that text. -/
def Jsonpb.ofTable (F : Type) [FloatFormat F] (table : List (Frame × List UInt8)) : Jsonpb where
  marshalToString frame :=
    match table.find? fun e => some e.1 = frame with
    | some e => .ok e.2
    | none => .error .jsonpb
  unmarshalString text :=
    match table.find? fun e => (unmarshal e.2 : Option (Json F)).map marshal = some text with
    | some e => .ok e.1
    | none => .error .jsonpb

/-- What `RoundTrips` asks of one entry. -/
def Jsonpb.reads (F : Type) [FloatFormat F] (pb : Jsonpb) (e : Frame × List UInt8) : Bool :=
  match read e.2 with
  | some t =>
    match (decode t : Option (Json F)) with
    | some (.obj ms) =>
      t.depth < maxNestingDepth ∧ pb.unmarshalString (marshal (.obj ms)) = .ok e.1
    | _ => false
  | none => false

theorem Jsonpb.ofTable_roundTrips {table : List (Frame × List UInt8)}
    (h : ∀ e ∈ table, (Jsonpb.ofTable F table).reads F e) :
    (Jsonpb.ofTable F table).RoundTrips F := by
  intro frame text hmarshal
  simp only [Jsonpb.ofTable] at hmarshal
  split at hmarshal
  next e he =>
    cases hmarshal
    have hframe : some e.1 = frame := by simpa using List.find?_some he
    have hreads := h e (List.mem_of_find?_eq_some he)
    unfold Jsonpb.reads at hreads
    split at hreads
    next t ht =>
      split at hreads
      next ms hms =>
        obtain ⟨hdepth, hunmarshal⟩ := of_decide_eq_true hreads
        exact ⟨e.1, t, ms, hframe.symm, ht, hdepth, hms, hunmarshal⟩
      next => cases hreads
    next => cases hreads
  next => cases hmarshal

end

end I40Aas.Interaction
