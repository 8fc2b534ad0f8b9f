import Mathlib.Data.List.TakeWhile
import I40Aas.EndpointRegistry.Routes
import I40Aas.EndpointResolver.Resolver
import I40Aas.Lib.Json.Decimal
import I40Aas.Lib.Words

/-!
The path of a query of the endpoint registry, and what the registry's router makes of it.
The texts in the path are written by `url.QueryEscape`, where a space is a plus sign, and
read by `decodeURIComponent`, where a plus sign is a plus sign.
-/

namespace I40Aas.EndpointResolver

open I40Aas.Lib I40Aas.Lib.Json I40Aas.Lib.PercentEncoding I40Aas.Interaction
open I40Aas.EndpointRegistry.Router

/-- How a message names its receiver. -/
inductive NamedReceiver
  | byId (id : String)
  | byRole (semanticProtocol roleName : String)
  deriving DecidableEq

namespace NamedReceiver

/-- The route of the registry that is queried for the receiver. -/
def route : NamedReceiver → String
  | byId id => "/AASDescriptors/" ++ queryEscape id
  | byRole semanticProtocol roleName =>
      "/semanticProtocols/" ++ queryEscape semanticProtocol ++ "/role/" ++
        queryEscape roleName ++ "/AASDescriptors"

/-- The handler that looks the receiver up, with its parameters. -/
def lookup : NamedReceiver → Handler × List (String × String)
  | byId id => (.readAASDescriptorByAASId, [("aasId", id)])
  | byRole semanticProtocol roleName =>
      (.readAASBySemanticProtocolAndRole,
        [("semanticProtocolId", semanticProtocol), ("roleName", roleName)])

def texts : NamedReceiver → List String
  | byId id => [id]
  | byRole semanticProtocol roleName => [semanticProtocol, roleName]

def isById : NamedReceiver → Bool
  | byId _ => true
  | byRole _ _ => false

/-- What the registry's answer is read as. -/
def descriptors {F : Type} [FloatFormat F] (receiver : NamedReceiver) (registryResp : List UInt8) :
    Except Error (List (Json F)) :=
  match receiver with
  | byId _ =>
      if registryResp = goString "{}" then .ok []
      else unmarshalSlice (goString "[" ++ registryResp ++ goString "]")
  | byRole _ _ => if registryResp = goString "[]" then .ok [] else unmarshalSlice registryResp

end NamedReceiver

/-- The receiver that the registry is asked for, by its id if the message has one. -/
def namedReceiver (frame : Frame) : Option NamedReceiver :=
  match frame.receiver with
  | none => none
  | some receiver =>
      match receiverId receiver, receiverRole receiver with
      | some id, _ => some (.byId id)
      | none, some role =>
          if frame.semanticProtocol = "" then none else some (.byRole frame.semanticProtocol role)
      | none, none => none

/-- What a character is read as after it was escaped. -/
def readBack (c : Char) : Char :=
  if c = ' ' then '+' else c

/-- A character may be part of a segment. -/
def IsSegmentChar (c : Char) : Prop :=
  c ≠ '/' ∧ c ≠ '?' ∧ c ≠ '#'

instance : DecidablePred IsSegmentChar := fun _ => inferInstanceAs (Decidable (_ ∧ _))

def escapeByte (b : UInt8) : List Char :=
  if isUnreserved b then [Char.ofNat b.toNat]
  else if b = 32 then ['+']
  else ['%', upperHex (b.toNat / 16), upperHex (b.toNat % 16)]

theorem toList_queryEscape (s : String) : (queryEscape s).toList =
    s.toList.flatMap fun c => (String.utf8EncodeChar c).flatMap escapeByte := by
  rw [queryEscape, String.toList_ofList, goString, Utf8.bytes, List.flatMap_assoc]
  rfl

theorem octet_upperHex : ∀ n < 256,
    octet (upperHex (n / 16)) (upperHex (n % 16)) = some (UInt8.ofNat n) := by
  decide +kernel

theorem isEscape_escapeByte {b : UInt8} (hunreserved : isUnreserved b = false) (hspace : b ≠ 32) :
    IsEscape b (escapeByte b) := by
  refine ⟨upperHex (b.toNat / 16), upperHex (b.toNat % 16), ?_, ?_⟩
  · rw [escapeByte, if_neg (by simp [hunreserved]), if_neg hspace]
  · rw [octet_upperHex b.toNat b.toNat_lt, UInt8.ofNat_toNat]

/-- An ASCII character is escaped, or written as the one that it is read back as. -/
theorem escapeByte_ascii : ∀ n < 128,
    (isUnreserved (UInt8.ofNat n) = false ∧ UInt8.ofNat n ≠ 32 ∧
      readBack (Char.ofNat n) = Char.ofNat n) ∨
    (escapeByte (UInt8.ofNat n) = [readBack (Char.ofNat n)] ∧ readBack (Char.ofNat n) ≠ '%') := by
  decide +kernel

theorem escapeByte_separators : ∀ n < 256, escapeByte (UInt8.ofNat n) ≠ [] ∧
    (escapeByte (UInt8.ofNat n)).Forall IsSegmentChar := by
  decide +kernel

theorem reads_escaped (c : Char) :
    Reads ((String.utf8EncodeChar c).flatMap escapeByte) (readBack c) := by
  by_cases hascii : c.toNat < 128
  · have hbyte := Utf8.encodeChar_ascii hascii
    have hchar : Char.ofNat c.toNat = c := Char.ofNat_toNat c
    rcases escapeByte_ascii c.toNat hascii with ⟨hunreserved, hspace, hread⟩ | ⟨hwritten, hliteral⟩
    · rw [hchar] at hread
      rw [hread]
      refine reads_escapes fun b hb => ?_
      rw [hbyte, List.mem_singleton] at hb
      rw [hb]
      exact isEscape_escapeByte hunreserved hspace
    · rw [hchar] at hwritten hliteral
      rw [hbyte, List.flatMap_singleton, hwritten]
      exact reads_literal hliteral
  · have hread : readBack c = c := by
      refine if_neg fun hspace => hascii ?_
      rw [hspace]
      decide
    rw [hread]
    refine reads_escapes fun b hb => ?_
    have hle := Utf8.le_toNat_of_mem_encodeChar (by omega) hb
    refine isEscape_escapeByte ?_ ?_
    · have hlt : ¬ b < 128 := by
        rw [UInt8.lt_iff_toNat_lt]
        show ¬ b.toNat < 128
        omega
      simp [isUnreserved, hlt]
    · rintro rfl
      exact absurd hle (by decide)

theorem decodeURIComponent_queryEscape (s : String) :
    decodeURIComponent (queryEscape s).toList = some (s.toList.map readBack) := by
  rw [toList_queryEscape]
  exact decodeURIComponent_flatMap reads_escaped s.toList

theorem not_separator_of_mem_queryEscape {s : String} {c : Char} (hc : c ∈ (queryEscape s).toList) :
    IsSegmentChar c := by
  rw [toList_queryEscape] at hc
  obtain ⟨_, -, hchar⟩ := List.mem_flatMap.mp hc
  obtain ⟨b, -, hbyte⟩ := List.mem_flatMap.mp hchar
  rw [← UInt8.ofNat_toNat (x := b)] at hbyte
  exact List.forall_iff_forall_mem.mp (escapeByte_separators b.toNat b.toNat_lt).2 c hbyte

theorem queryEscape_ne_nil {s : String} (hs : s ≠ "") : (queryEscape s).toList ≠ [] := by
  intro h
  rw [toList_queryEscape, List.flatMap_eq_nil_iff] at h
  obtain ⟨c, text, htext⟩ := List.exists_cons_of_ne_nil (mt String.toList_eq_nil_iff.mp hs)
  have hchar := h c (by simp [htext])
  obtain ⟨b, bs, hbytes⟩ := List.exists_cons_of_ne_nil (String.utf8EncodeChar_ne_nil (c := c))
  rw [hbytes, List.flatMap_cons, List.append_eq_nil_iff] at hchar
  have hbyte := (escapeByte_separators b.toNat b.toNat_lt).1
  rw [UInt8.ofNat_toNat] at hbyte
  exact hbyte hchar.1

/-- A path of segments is split into them again. -/
theorem segments_intercalate {path : String} {ss : List (List Char)} (hne : ss ≠ [])
    (hpath : path.toList = ['/'].intercalate ss) (hss : ∀ s ∈ ss, ∀ c ∈ s, IsSegmentChar c) :
    segments path = ss := by
  have htake : (path.toList.takeWhile fun c => c ≠ '?' ∧ c ≠ '#') = path.toList := by
    rw [List.takeWhile_eq_self_iff, hpath]
    intro c hc
    rcases mem_intercalate hc with rfl | ⟨s, hs, hcs⟩
    · decide
    · exact decide_eq_true (hss s hs c hcs).2
  rw [segments, htake, hpath, List.splitOn_intercalate '/' ?_ hne]
  exact fun s hs hslash => (hss s hs '/' hslash).1 rfl

theorem toList_route_byId (id : String) : (NamedReceiver.byId id).route.toList =
    ['/'].intercalate [[], "AASDescriptors".toList, (queryEscape id).toList] := by
  have hstart : "/AASDescriptors/".toList = ['/'] ++ ("AASDescriptors".toList ++ ['/']) := by
    decide
  have hroute : (NamedReceiver.byId id).route = "/AASDescriptors/" ++ queryEscape id := rfl
  rw [hroute, String.toList_append]
  generalize (queryEscape id).toList = text
  rw [hstart, List.intercalate_cons_cons, List.intercalate_cons_cons, List.intercalate_singleton]
  simp only [List.nil_append, List.append_assoc]

theorem toList_route_byRole (semanticProtocol roleName : String) :
    (NamedReceiver.byRole semanticProtocol roleName).route.toList =
      ['/'].intercalate [[], "semanticProtocols".toList, (queryEscape semanticProtocol).toList,
        "role".toList, (queryEscape roleName).toList, "AASDescriptors".toList] := by
  have hstart : "/semanticProtocols/".toList =
      ['/'] ++ ("semanticProtocols".toList ++ ['/']) := by
    decide
  have hrole : "/role/".toList = ['/'] ++ ("role".toList ++ ['/']) := by
    decide
  have hsuffix : "/AASDescriptors".toList = ['/'] ++ "AASDescriptors".toList := by
    decide
  have hroute : (NamedReceiver.byRole semanticProtocol roleName).route =
      "/semanticProtocols/" ++ queryEscape semanticProtocol ++ "/role/" ++ queryEscape roleName ++
        "/AASDescriptors" := rfl
  rw [hroute, String.toList_append, String.toList_append, String.toList_append,
    String.toList_append]
  generalize (queryEscape semanticProtocol).toList = protocolText
  generalize (queryEscape roleName).toList = roleText
  rw [hstart, hrole, hsuffix]
  simp only [List.intercalate_cons_cons, List.intercalate_singleton, List.nil_append,
    List.append_assoc]

theorem isSegmentChar_aasDescriptors : ∀ c ∈ "AASDescriptors".toList, IsSegmentChar c :=
  List.forall_iff_forall_mem.mp (by decide)

theorem segments_byId (id : String) : segments (NamedReceiver.byId id).route =
    [[], "AASDescriptors".toList, (queryEscape id).toList] := by
  have htext : ∀ c ∈ (queryEscape id).toList, IsSegmentChar c :=
    fun _ hc => not_separator_of_mem_queryEscape hc
  have hroute := toList_route_byId id
  refine segments_intercalate (List.cons_ne_nil _ _) hroute ?_
  generalize (queryEscape id).toList = text at htext
  simp only [List.forall_mem_cons]
  exact ⟨List.forall_mem_nil _, isSegmentChar_aasDescriptors, htext, List.forall_mem_nil _⟩

theorem segments_byRole (semanticProtocol roleName : String) :
    segments (NamedReceiver.byRole semanticProtocol roleName).route =
      [[], "semanticProtocols".toList, (queryEscape semanticProtocol).toList,
        "role".toList, (queryEscape roleName).toList, "AASDescriptors".toList] := by
  have hprotocol : ∀ c ∈ (queryEscape semanticProtocol).toList, IsSegmentChar c :=
    fun _ hc => not_separator_of_mem_queryEscape hc
  have hrole : ∀ c ∈ (queryEscape roleName).toList, IsSegmentChar c :=
    fun _ hc => not_separator_of_mem_queryEscape hc
  have hprotocols : ∀ c ∈ "semanticProtocols".toList, IsSegmentChar c :=
    List.forall_iff_forall_mem.mp (by decide)
  have hroles : ∀ c ∈ "role".toList, IsSegmentChar c :=
    List.forall_iff_forall_mem.mp (by decide)
  have hroute := toList_route_byRole semanticProtocol roleName
  refine segments_intercalate (List.cons_ne_nil _ _) hroute ?_
  generalize (queryEscape semanticProtocol).toList = protocolText at hprotocol
  generalize (queryEscape roleName).toList = roleText at hrole
  simp only [List.forall_mem_cons]
  exact ⟨List.forall_mem_nil _, hprotocols, hprotocol, hroles, hrole,
    isSegmentChar_aasDescriptors, List.forall_mem_nil _⟩

/-! The routes before the one for the query have another literal, or end too early. -/

theorem dispatch_byId {url : String} {c : Char} {text : List Char}
    (hurl : segments url = [[], "AASDescriptors".toList, c :: text]) :
    dispatch .get url routes = (decodeParams [("aasId", c :: text)]).map
      (Handler.readAASDescriptorByAASId, ·) := by
  have hhealth : matchSegments (segments "/health")
      [[], "AASDescriptors".toList, c :: text] = none := rfl
  have hadmin : matchSegments (segments "/admin/AASDescriptors")
      [[], "AASDescriptors".toList, c :: text] = none := rfl
  have hlist : matchSegments (segments "/AASDescriptors")
      [[], "AASDescriptors".toList, c :: text] = none := rfl
  have hid : matchSegments (segments "/AASDescriptors/:aasId")
      [[], "AASDescriptors".toList, c :: text] = some [("aasId", c :: text)] := rfl
  simp only [routes, dispatch, hurl, hhealth, hadmin, hlist, hid]
  cases decodeParams [("aasId", c :: text)] <;> rfl

theorem dispatch_byRole {url : String} {c d : Char} {protocolText roleText : List Char}
    (hurl : segments url = [[], "semanticProtocols".toList, c :: protocolText, "role".toList,
      d :: roleText, "AASDescriptors".toList]) :
    dispatch .get url routes =
      (decodeParams [("semanticProtocolId", c :: protocolText), ("roleName", d :: roleText)]).map
        (Handler.readAASBySemanticProtocolAndRole, ·) := by
  have hother : ∀ path ∈ ["/health", "/admin/AASDescriptors", "/AASDescriptors",
      "/AASDescriptors/:aasId", "/admin/semanticProtocols", "/semanticProtocols",
      "/semanticProtocols/:sematicProtocolId"], matchSegments (segments path)
        [[], "semanticProtocols".toList, c :: protocolText, "role".toList, d :: roleText,
          "AASDescriptors".toList] = none := by
    simp only [List.forall_mem_cons]
    exact ⟨rfl, rfl, rfl, rfl, rfl, rfl, rfl, List.forall_mem_nil _⟩
  have hrole : matchSegments
      (segments "/semanticProtocols/:semanticProtocolId/role/:roleName/AASDescriptors")
        [[], "semanticProtocols".toList, c :: protocolText, "role".toList, d :: roleText,
          "AASDescriptors".toList] =
      some [("semanticProtocolId", c :: protocolText), ("roleName", d :: roleText)] := rfl
  simp only [List.forall_mem_cons] at hother
  obtain ⟨h₁, h₂, h₃, h₄, h₅, h₆, h₇, -⟩ := hother
  simp only [routes, dispatch, hurl, h₁, h₂, h₃, h₄, h₅, h₆, h₇, hrole]
  cases decodeParams [("semanticProtocolId", c :: protocolText), ("roleName", d :: roleText)] <;>
    rfl

theorem decodeParams_cons (param : String × List Char) (params : List (String × List Char)) :
    decodeParams (param :: params) = (decodeURIComponent param.2).bind fun value =>
      (decodeParams params).map ((param.1, String.ofList value) :: ·) := by
  rw [decodeParams, List.mapM_cons]
  cases decodeURIComponent param.2 with
  | none => rfl
  | some value =>
      show Option.bind (decodeParams params) _ = Option.map _ (decodeParams params)
      cases decodeParams params <;> rfl

theorem decodeParams_queryEscape (params : List (String × String)) :
    decodeParams (params.map fun param => (param.1, (queryEscape param.2).toList)) =
      some (params.map fun param => (param.1, String.ofList (param.2.toList.map readBack))) := by
  induction params with
  | nil => rfl
  | cons param params ih =>
      rw [List.map_cons, decodeParams_cons, decodeURIComponent_queryEscape, ih]
      rfl

theorem readBack_text_eq_iff {s : String} :
    String.ofList (s.toList.map readBack) = s ↔ ' ' ∉ s.toList := by
  have hself : ∀ c, readBack c = c ↔ c ≠ ' ' := by
    intro c
    unfold readBack
    split
    · rename_i hspace
      rw [hspace]
      decide
    · rename_i hspace
      exact iff_of_true rfl hspace
  rw [← String.toList_inj, String.toList_ofList]
  constructor
  · intro h hspace
    rw [← List.map_id s.toList, List.map_map] at h
    have hread := List.map_eq_map_iff.mp h ' ' hspace
    exact (hself ' ').mp hread rfl
  · intro h
    refine (List.map_congr_left fun c hc => ?_).trans (List.map_id _)
    exact (hself c).mpr fun hspace => h (hspace ▸ hc)

theorem receiverId_ne_empty {receiver : ConversationMember} {id : String}
    (h : receiverId receiver = some id) : id ≠ "" := by
  unfold receiverId at h
  split at h
  · split at h
    · cases h
    · rename_i hne
      obtain rfl := Option.some.inj h
      exact hne
  · cases h

theorem receiverRole_ne_empty {receiver : ConversationMember} {roleName : String}
    (h : receiverRole receiver = some roleName) : roleName ≠ "" := by
  unfold receiverRole at h
  split at h
  · split at h
    · cases h
    · rename_i hne
      obtain rfl := Option.some.inj h
      exact hne
  · cases h

theorem texts_ne_empty {frame : Frame} {receiver : NamedReceiver}
    (h : namedReceiver frame = some receiver) : ∀ text ∈ receiver.texts, text ≠ "" := by
  intro text htext
  unfold namedReceiver at h
  split at h
  · cases h
  · split at h
    · rename_i hid
      obtain rfl := Option.some.inj h
      obtain rfl := List.mem_singleton.mp htext
      exact receiverId_ne_empty hid
    · rename_i hrole
      split at h
      · cases h
      · rename_i hprotocol
        obtain rfl := Option.some.inj h
        rw [NamedReceiver.texts, List.mem_cons, List.mem_singleton] at htext
        rcases htext with rfl | rfl
        · exact hprotocol
        · exact receiverRole_ne_empty hrole
    · cases h

/-- The handler gets the texts with their spaces read as plus signs. -/
theorem dispatch_route {receiver : NamedReceiver} (h : ∀ text ∈ receiver.texts, text ≠ "") :
    dispatch .get receiver.route routes =
      some (receiver.lookup.1,
        receiver.lookup.2.map fun param =>
          (param.1, String.ofList (param.2.toList.map readBack))) := by
  cases receiver with
  | byId id =>
      obtain ⟨c, text, htext⟩ :=
        List.exists_cons_of_ne_nil (queryEscape_ne_nil (h id List.mem_cons_self))
      have hdecoded := decodeParams_queryEscape [("aasId", id)]
      have hsegments := segments_byId id
      simp only [List.map_cons, List.map_nil] at hdecoded
      rw [htext] at hsegments hdecoded
      rw [dispatch_byId hsegments, hdecoded]
      rfl
  | byRole semanticProtocol roleName =>
      obtain ⟨c, protocolText, hprotocol⟩ :=
        List.exists_cons_of_ne_nil (queryEscape_ne_nil (h semanticProtocol List.mem_cons_self))
      obtain ⟨d, roleText, hrole⟩ :=
        List.exists_cons_of_ne_nil (queryEscape_ne_nil (h roleName (by simp [NamedReceiver.texts])))
      have hdecoded := decodeParams_queryEscape
        [("semanticProtocolId", semanticProtocol), ("roleName", roleName)]
      have hsegments := segments_byRole semanticProtocol roleName
      simp only [List.map_cons, List.map_nil] at hdecoded
      rw [hprotocol, hrole] at hsegments hdecoded
      rw [dispatch_byRole hsegments, hdecoded]
      rfl

theorem dispatch_route_eq_lookup_iff {receiver : NamedReceiver}
    (h : ∀ text ∈ receiver.texts, text ≠ "") :
    dispatch .get receiver.route routes = some receiver.lookup ↔
      ∀ text ∈ receiver.texts, ' ' ∉ text.toList := by
  rw [dispatch_route h]
  cases receiver with
  | byId id => simp [NamedReceiver.lookup, NamedReceiver.texts, readBack_text_eq_iff]
  | byRole semanticProtocol roleName =>
      simp [NamedReceiver.lookup, NamedReceiver.texts, readBack_text_eq_iff]

section

variable {F : Type} [FloatFormat F]

/-- The one query is for the route of the receiver that the message names. -/
theorem getAASDescriptorsFromEndpointRegistry_eq (env : Env F) (frame : Frame) :
    getAASDescriptorsFromEndpointRegistry env frame =
      match namedReceiver frame with
      | none => .error receiverMissing
      | some receiver => (env.queryEndpointRegistry receiver.route).bind receiver.descriptors := by
  unfold getAASDescriptorsFromEndpointRegistry namedReceiver
  cases frame.receiver with
  | none => rfl
  | some receiver =>
      cases hid : receiverId receiver with
      | some id =>
          cases hrole : receiverRole receiver <;> simp only [hid, hrole] <;> rfl
      | none =>
          cases hrole : receiverRole receiver with
          | none => simp only [hid, hrole]
          | some role =>
              simp only [hid, hrole]
              split <;> rfl

/-- A message that names its receiver leads to one query. The registry looks up the receiver
with exactly the texts of the message if and only if there is no space in them. -/
theorem registryLookup_iff {frame : Frame} {receiver : NamedReceiver}
    (h : namedReceiver frame = some receiver) :
    (∀ env : Env F, getAASDescriptorsFromEndpointRegistry env frame =
      (env.queryEndpointRegistry receiver.route).bind receiver.descriptors) ∧
    (dispatch .get receiver.route routes = some receiver.lookup ↔
      ∀ text ∈ receiver.texts, ' ' ∉ text.toList) := by
  refine ⟨fun env => ?_, dispatch_route_eq_lookup_iff (texts_ne_empty h)⟩
  rw [getAASDescriptorsFromEndpointRegistry_eq, h]

end

def frameTo (receiver : ConversationMember) (semanticProtocol : String) : Frame :=
  { semanticProtocol := semanticProtocol
    type := ""
    messageId := ""
    replyBy := 0
    receiver := some receiver
    sender := none
    conversationId := "" }

/-- Everything but a space comes back. -/
theorem registryLookup_urn :
    dispatch .get (NamedReceiver.byId "urn:aas/1+2?ü%").route routes =
      some (.readAASDescriptorByAASId, [("aasId", "urn:aas/1+2?ü%")]) := by
  have hnamed : namedReceiver (frameTo ⟨some ⟨"urn:aas/1+2?ü%", ""⟩, none⟩ "") =
      some (.byId "urn:aas/1+2?ü%") := by
    decide
  exact (registryLookup_iff (F := ℕ) hnamed).2.mpr (by decide)

theorem not_registryLookup_space :
    ¬ ∀ (frame : Frame) (receiver : NamedReceiver), namedReceiver frame = some receiver →
      dispatch .get receiver.route routes = some receiver.lookup := by
  intro h
  have hnamed : namedReceiver (frameTo ⟨some ⟨"my aas", ""⟩, none⟩ "") =
      some (.byId "my aas") := by
    decide
  have hne := texts_ne_empty hnamed
  have hnoSpace := (dispatch_route_eq_lookup_iff hne).mp (h _ _ hnamed)
  exact hnoSpace "my aas" List.mem_cons_self (by decide)

end I40Aas.EndpointResolver
