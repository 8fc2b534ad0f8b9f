import I40Aas.Lib.Json.Stringify

/-!
A value on its way from JavaScript to Go. `JSON.stringify` writes the members of an object in
their order, and encoding/json assigns them to a map one after the other. Apart from that the
value arrives as it is.
-/

namespace I40Aas.Lib.Json

variable {F : Type}

mutual

/-- Every object becomes a map. -/
def asMaps : Json F → Json F
  | .null => .null
  | .bool b => .bool b
  | .num x => .num x
  | .str s => .str s
  | .arr es => .arr (asMapsElements es)
  | .obj ms => .obj (ofMembers (asMapsMembers ms))

def asMapsElements : List (Json F) → List (Json F)
  | [] => []
  | e :: es => asMaps e :: asMapsElements es

def asMapsMembers : List (String × Json F) → List (String × Json F)
  | [] => []
  | (k, v) :: ms => (k, asMaps v) :: asMapsMembers ms

end

theorem asMapsElements_eq (es : List (Json F)) : asMapsElements es = es.map asMaps := by
  induction es with
  | nil => rfl
  | cons e es ih => rw [asMapsElements, ih, List.map_cons]

theorem asMapsMembers_eq (ms : List (String × Json F)) :
    asMapsMembers ms = ms.map fun m => (m.1, m.2.asMaps) := by
  induction ms with
  | nil => rfl
  | cons m ms ih => rw [asMapsMembers, ih, List.map_cons]

/-- Where no name occurs twice, a member is found under its name. -/
theorem index_asMaps {ms : List (String × Json F)} (h : (ms.map Prod.fst).Nodup) (k : String) :
    index (ofMembers (asMapsMembers ms)) k = (index ms k).asMaps := by
  have hkeys : ((asMapsMembers ms).map Prod.fst).Nodup := by
    rw [asMapsMembers_eq, List.map_map]
    exact h
  rw [index_ofMembers hkeys, asMapsMembers_eq]
  clear h hkeys
  induction ms with
  | nil => rfl
  | cons m ms ih =>
      rw [index, index, List.map_cons, lookup_cons_eq_ite, lookup_cons_eq_ite]
      split
      · rfl
      · exact ih

theorem depthElements_le {es : List (Json F)} {bound : ℕ} (h : ∀ e ∈ es, e.depth ≤ bound) :
    depthElements es ≤ bound := by
  induction es with
  | nil => exact Nat.zero_le bound
  | cons e es ih =>
      have hfirst := h e List.mem_cons_self
      have hrest := ih fun e' he' => h e' (List.mem_cons_of_mem e he')
      rw [depthElements]
      omega

section

variable [FloatFormat F]

mutual

theorem decode_encode_asMaps : (v : Json F) → decode (encode v) = some v.asMaps
  | .null | .bool _ | .str _ => rfl
  | .num x => by simp [encode, decode, asMaps, FloatFormat.parse_format]
  | .arr es => by simp [encode, decode, asMaps, decodeElements_encode_asMaps es]
  | .obj ms => by simp [encode, decode, asMaps, decodeMembers_encode_asMaps ms]

theorem decodeElements_encode_asMaps : (es : List (Json F)) →
    decodeElements (encodeElements es) = some (asMapsElements es)
  | [] => rfl
  | e :: es => by
      simp [encodeElements, decodeElements, asMapsElements, decode_encode_asMaps e,
        decodeElements_encode_asMaps es]

theorem decodeMembers_encode_asMaps : (ms : List (String × Json F)) →
    decodeMembers (encodeMembers ms) = some (asMapsMembers ms)
  | [] => rfl
  | (k, v) :: ms => by
      simp [encodeMembers, decodeMembers, asMapsMembers, decode_encode_asMaps v,
        decodeMembers_encode_asMaps ms]

end

theorem unmarshal_stringify_asMaps {v : Json F} (h : v.depth ≤ maxNestingDepth) :
    unmarshal (stringify v) = some v.asMaps := by
  simp only [unmarshal, read_stringify, depth_encode, if_pos h, decode_encode_asMaps]

/-- A text between brackets is the text of an array. -/
theorem stringify_singleton (v : Json F) :
    Utf8.bytes ['['] ++ stringify v ++ Utf8.bytes [']'] = stringify (.arr [v]) := by
  rw [stringify, stringify, Utf8.bytes, Utf8.bytes, Utf8.bytes, ← List.flatMap_append,
    ← List.flatMap_append]
  rfl

theorem stringify_eq_iff {v w : Json F} : stringify v = stringify w ↔ encode v = encode w := by
  constructor
  · intro h
    have hread := read_stringify v
    rw [h, read_stringify] at hread
    exact (Option.some.inj hread).symm
  · intro h
    rw [stringify, stringify, h]

end

end I40Aas.Lib.Json
