import I40Aas.Lib.Json.Object
import I40Aas.Lib.Json.Printer
import I40Aas.Lib.Utf8

/-!
JSON values as encoding/json reads them into an interface and prints them. Numbers
are floats, of which only the round trip is known, and objects are maps.
`unmarshal_marshal` is the round trip of a value, and `read_rawObject` reads an
object whose member values were spliced in as text.
-/

namespace I40Aas.Lib.Json

/-- `strconv.ParseFloat`, which refuses what is out of range, and the shortest
`strconv.FormatFloat`, which ParseFloat reads back. -/
class FloatFormat (F : Type) where
  parseFloat : Literal → Option F
  formatFloat : F → Literal
  parse_format : ∀ x, parseFloat (formatFloat x) = some x

/-- The numbers of one digit, which are written as they are read. -/
abbrev Digit := Fin 10

def Digit.literal (n : Digit) : Literal :=
  ⟨[Char.ofNat ('0'.toNat + n)], by revert n; decide⟩

instance : FloatFormat Digit where
  parseFloat l := (List.finRange 10).find? fun n => Digit.literal n = l
  formatFloat := Digit.literal
  parse_format := by decide

variable {N F : Type}

mutual

/-- Every object is a map. -/
def Canonical : Json N → Prop
  | .arr es => CanonicalElements es
  | .obj ms => Sorted ms ∧ CanonicalMembers ms
  | _ => True

def CanonicalElements : List (Json N) → Prop
  | [] => True
  | e :: es => e.Canonical ∧ CanonicalElements es

def CanonicalMembers : List (String × Json N) → Prop
  | [] => True
  | (_, v) :: ms => v.Canonical ∧ CanonicalMembers ms

end

/-! Maps whose values are canonical. -/

theorem setMember_canonical {k : String} {v : Json N} {ms : List (String × Json N)}
    (hv : v.Canonical) (hms : CanonicalMembers ms) :
    CanonicalMembers (setMember k v ms) := by
  induction ms with
  | nil => exact ⟨hv, trivial⟩
  | cons m ms ih =>
      obtain ⟨k', v'⟩ := m
      unfold setMember
      split
      · exact ⟨hv, hms⟩
      split
      · exact ⟨hv, hms.2⟩
      · exact ⟨hms.1, ih hms.2⟩

theorem ofMembers_canonical {ms : List (String × Json N)} (h : CanonicalMembers ms) :
    CanonicalMembers (ofMembers ms) := by
  suffices hgen : ∀ m : List (String × Json N), CanonicalMembers m →
      CanonicalMembers (ms.foldl (fun m kv => setMember kv.1 kv.2 m) m) from
    hgen [] trivial
  induction ms with
  | nil => exact fun m hm => hm
  | cons kv ms ih => exact fun m hm => ih h.2 _ (setMember_canonical h.1 hm)

theorem depthMembers_setMember (k : String) (v : Json N) (ms : List (String × Json N)) :
    depthMembers (setMember k v ms) ≤ max v.depth (depthMembers ms) := by
  induction ms with
  | nil => simp [setMember, depthMembers]
  | cons m ms ih =>
      obtain ⟨k', v'⟩ := m
      unfold setMember
      split
      · simp [depthMembers]
      split
      · simp only [depthMembers]
        omega
      · simp only [depthMembers]
        omega

theorem depthMembers_ofMembers (ms : List (String × Json N)) :
    depthMembers (ofMembers ms) ≤ depthMembers ms := by
  suffices hgen : ∀ m : List (String × Json N),
      depthMembers (ms.foldl (fun m kv => setMember kv.1 kv.2 m) m) ≤
        max (depthMembers m) (depthMembers ms) by
    simpa [depthMembers, ofMembers] using hgen []
  induction ms with
  | nil => simp [depthMembers]
  | cons kv ms ih =>
      intro m
      have hset := depthMembers_setMember kv.1 kv.2 m
      have hrest := ih (setMember kv.1 kv.2 m)
      simp only [List.foldl_cons, depthMembers]
      omega

theorem index_canonical {ms : List (String × Json N)} (h : CanonicalMembers ms)
    (k : String) : (index ms k).Canonical := by
  induction ms with
  | nil => trivial
  | cons m ms ih =>
      obtain ⟨k', v⟩ := m
      rw [index, List.lookup_cons]
      split
      · exact h.1
      · exact ih h.2

theorem depth_index_le (ms : List (String × Json N)) (k : String) :
    (index ms k).depth ≤ depthMembers ms := by
  induction ms with
  | nil => exact Nat.le_refl _
  | cons m ms ih =>
      obtain ⟨k', v⟩ := m
      rw [index, List.lookup_cons, depthMembers]
      split
      · exact Nat.le_max_left _ _
      · exact Nat.le_trans ih (Nat.le_max_right _ _)

/-- A map is as deep as what is found under its names. -/
theorem depthMembers_le {ms : List (String × Json N)} (h : Sorted ms) {names : List String}
    {bound : Nat} (hnames : ∀ m ∈ ms, m.1 ∈ names)
    (hbound : ∀ k ∈ names, (index ms k).depth ≤ bound) : depthMembers ms ≤ bound := by
  have hvalues : ∀ m ∈ ms, m.2.depth ≤ bound := fun m hm => by
    rw [← index_of_mem h hm]
    exact hbound m.1 (hnames m hm)
  clear h hnames hbound
  induction ms with
  | nil => exact Nat.zero_le bound
  | cons m ms ih =>
      have hfirst := hvalues m List.mem_cons_self
      have hrest := ih fun m' hm' => hvalues m' (List.mem_cons_of_mem m hm')
      simp only [depthMembers]
      omega

/-! Reading and printing. -/

variable [FloatFormat F]

mutual

def decode : Json Literal → Option (Json F)
  | .null => some .null
  | .bool b => some (.bool b)
  | .num l => (FloatFormat.parseFloat l).map .num
  | .str s => some (.str s)
  | .arr es => (decodeElements es).map .arr
  | .obj ms => (decodeMembers ms).map fun ms => .obj (ofMembers ms)

def decodeElements : List (Json Literal) → Option (List (Json F))
  | [] => some []
  | e :: es => do
    let v ← decode e
    let vs ← decodeElements es
    return v :: vs

def decodeMembers : List (String × Json Literal) → Option (List (String × Json F))
  | [] => some []
  | (k, e) :: ms => do
    let v ← decode e
    let vs ← decodeMembers ms
    return (k, v) :: vs

end

mutual

def encode : Json F → Json Literal
  | .null => .null
  | .bool b => .bool b
  | .num x => .num (FloatFormat.formatFloat x)
  | .str s => .str s
  | .arr es => .arr (encodeElements es)
  | .obj ms => .obj (encodeMembers ms)

def encodeElements : List (Json F) → List (Json Literal)
  | [] => []
  | e :: es => encode e :: encodeElements es

def encodeMembers : List (String × Json F) → List (String × Json Literal)
  | [] => []
  | (k, v) :: ms => (k, encode v) :: encodeMembers ms

end

/-! What was encoded is decoded. -/

mutual

theorem decode_encode : (v : Json F) → v.Canonical → decode (encode v) = some v
  | .null, _ | .bool _, _ | .str _, _ => rfl
  | .num x, _ => by simp [encode, decode, FloatFormat.parse_format]
  | .arr es, h => by simp [encode, decode, decodeElements_encode es h]
  | .obj ms, h => by
      simp [encode, decode, decodeMembers_encode ms h.2, ofMembers_of_sorted h.1]

theorem decodeElements_encode : (es : List (Json F)) → CanonicalElements es →
    decodeElements (encodeElements es) = some es
  | [], _ => rfl
  | e :: es, h => by
      simp [encodeElements, decodeElements, decode_encode e h.1,
        decodeElements_encode es h.2]

theorem decodeMembers_encode : (ms : List (String × Json F)) → CanonicalMembers ms →
    decodeMembers (encodeMembers ms) = some ms
  | [], _ => rfl
  | (k, v) :: ms, h => by
      simp [encodeMembers, decodeMembers, decode_encode v h.1,
        decodeMembers_encode ms h.2]

end

/-! What was decoded is canonical, and not deeper than the text. -/

mutual

theorem decode_canonical : (t : Json Literal) → ∀ v : Json F, decode t = some v →
    v.Canonical ∧ v.depth ≤ t.depth
  | .null, v, h | .bool _, v, h | .str _, v, h => by
      cases h
      exact ⟨trivial, Nat.le_refl _⟩
  | .num l, v, h => by
      obtain ⟨x, -, rfl⟩ := Option.map_eq_some_iff.1 h
      exact ⟨trivial, Nat.le_refl _⟩
  | .arr es, v, h => by
      obtain ⟨vs, hvs, rfl⟩ := Option.map_eq_some_iff.1 h
      obtain ⟨hcanonical, hdepth⟩ := decodeElements_canonical es vs hvs
      exact ⟨hcanonical, Nat.succ_le_succ hdepth⟩
  | .obj ms, v, h => by
      obtain ⟨vs, hvs, rfl⟩ := Option.map_eq_some_iff.1 h
      obtain ⟨hcanonical, hdepth⟩ := decodeMembers_canonical ms vs hvs
      refine ⟨⟨ofMembers_sorted vs, ofMembers_canonical hcanonical⟩, ?_⟩
      exact Nat.succ_le_succ (Nat.le_trans (depthMembers_ofMembers vs) hdepth)

theorem decodeElements_canonical : (es : List (Json Literal)) →
    ∀ vs : List (Json F), decodeElements es = some vs →
    CanonicalElements vs ∧ depthElements vs ≤ depthElements es
  | [], vs, h => by
      cases h
      exact ⟨trivial, Nat.le_refl _⟩
  | e :: es, vs, h => by
      simp only [decodeElements, Option.bind_eq_bind, Option.bind_eq_some_iff] at h
      obtain ⟨v, hv, vs', hvs, heq⟩ := h
      cases heq
      obtain ⟨hcanonical, hdepth⟩ := decode_canonical e v hv
      obtain ⟨hcanonical', hdepth'⟩ := decodeElements_canonical es vs' hvs
      refine ⟨⟨hcanonical, hcanonical'⟩, ?_⟩
      simp only [depthElements]
      omega

theorem decodeMembers_canonical : (ms : List (String × Json Literal)) →
    ∀ vs : List (String × Json F), decodeMembers ms = some vs →
    CanonicalMembers vs ∧ depthMembers vs ≤ depthMembers ms
  | [], vs, h => by
      cases h
      exact ⟨trivial, Nat.le_refl _⟩
  | (k, e) :: ms, vs, h => by
      simp only [decodeMembers, Option.bind_eq_bind, Option.bind_eq_some_iff] at h
      obtain ⟨v, hv, vs', hvs, heq⟩ := h
      cases heq
      obtain ⟨hcanonical, hdepth⟩ := decode_canonical e v hv
      obtain ⟨hcanonical', hdepth'⟩ := decodeMembers_canonical ms vs' hvs
      refine ⟨⟨hcanonical, hcanonical'⟩, ?_⟩
      simp only [depthMembers]
      omega

end

mutual

theorem depth_encode : (v : Json F) → (encode v).depth = v.depth
  | .null | .bool _ | .num _ | .str _ => rfl
  | .arr es => congrArg (· + 1) (depth_encodeElements es)
  | .obj ms => congrArg (· + 1) (depth_encodeMembers ms)

theorem depth_encodeElements : (es : List (Json F)) →
    depthElements (encodeElements es) = depthElements es
  | [] => rfl
  | e :: es => by
      simp only [encodeElements, depthElements, depth_encode e, depth_encodeElements es]

theorem depth_encodeMembers : (ms : List (String × Json F)) →
    depthMembers (encodeMembers ms) = depthMembers ms
  | [] => rfl
  | (k, v) :: ms => by
      simp only [encodeMembers, depthMembers, depth_encode v, depth_encodeMembers ms]

end

/-! Bytes. -/

/-- The syntax of a text. -/
def read (input : List UInt8) : Option (Json Literal) :=
  (scan .ready (Utf8.runes input)).bind parse

def maxNestingDepth : Nat := 10000

/-- `json.Unmarshal` into an interface. -/
def unmarshal (input : List UInt8) : Option (Json F) :=
  match read input with
  | some t => if t.depth ≤ maxNestingDepth then decode t else none
  | none => none

/-- `json.Marshal`. -/
def marshal (v : Json F) : List UInt8 :=
  Utf8.bytes (encode v).text

theorem read_eq_some_iff (input : List UInt8) (t : Json Literal) :
    read input = some t ↔ scan .ready (Utf8.runes input) = some t.tokens := by
  simp [read, Option.bind_eq_some_iff, parse_eq_some_iff]

theorem read_text (t : Json Literal) : read (Utf8.bytes t.text) = some t := by
  rw [read_eq_some_iff, Utf8.runes_bytes, scan_text]

theorem unmarshal_eq_some_iff (input : List UInt8) (v : Json F) :
    unmarshal input = some v ↔
      ∃ t, read input = some t ∧ t.depth ≤ maxNestingDepth ∧ decode t = some v := by
  unfold unmarshal
  cases read input with
  | none => simp
  | some t => by_cases h : t.depth ≤ maxNestingDepth <;> simp [h]

theorem unmarshal_marshal {v : Json F} (h : v.Canonical)
    (hdepth : v.depth ≤ maxNestingDepth) : unmarshal (marshal v) = some v := by
  rw [unmarshal_eq_some_iff]
  exact ⟨encode v, read_text _, by rwa [depth_encode], decode_encode v h⟩

theorem unmarshal_canonical {input : List UInt8} {v : Json F}
    (h : unmarshal input = some v) : v.Canonical ∧ v.depth ≤ maxNestingDepth := by
  obtain ⟨t, -, hdepth, hdecode⟩ := (unmarshal_eq_some_iff input v).1 h
  obtain ⟨hcanonical, hle⟩ := decode_canonical t v hdecode
  exact ⟨hcanonical, Nat.le_trans hle hdepth⟩

/-! Objects put together from texts. -/

def rawMembers : List (String × List UInt8) → List UInt8
  | [] => Utf8.bytes ['}']
  | (k, b) :: ms => Utf8.bytes (',' :: (quote k ++ [':'])) ++ (b ++ rawMembers ms)

def rawObject : List (String × List UInt8) → List UInt8
  | [] => Utf8.bytes ['{', '}']
  | (k, b) :: ms => Utf8.bytes ('{' :: (quote k ++ [':'])) ++ (b ++ rawMembers ms)

def ReadsAs (raw : List (String × List UInt8)) (ms : List (String × Json Literal)) : Prop :=
  List.Forall₂ (fun kb kt => kb.1 = kt.1 ∧ read kb.2 = some kt.2) raw ms

theorem scan_rawMembers {raw : List (String × List UInt8)}
    {ms : List (String × Json Literal)} (h : ReadsAs raw ms) {front : List UInt8}
    {ts : List (Token Literal)} (hfront : scan .ready (Utf8.runes front) = some ts) :
    scan .ready (Utf8.runes (front ++ rawMembers raw)) = some (ts ++ tokensMembers ms) := by
  -- the separator that opens a member ends the text of the value before it
  induction h generalizing front ts with
  | nil =>
      have hclose : separator '}' = some .closeObject := rfl
      have hrunes := Utf8.runes_append_bytes front (List.cons_ne_nil '}' []) []
      rw [List.append_nil] at hrunes
      rw [rawMembers, hrunes, List.singleton_append, scan_append_separator hclose _ hfront]
      rfl
  | @cons kb kt raw ms hm _ ih =>
      obtain ⟨k, b⟩ := kb
      obtain ⟨k', t⟩ := kt
      obtain ⟨rfl, hread⟩ := hm
      have hcomma : separator ',' = some .comma := rfl
      have hcolon : step .ready ':' = some ([.colon], .ready) := rfl
      rw [rawMembers, Utf8.runes_append_bytes front (List.cons_ne_nil ',' _),
        List.cons_append, scan_append_separator hcomma _ hfront, List.append_assoc,
        scan_quote, List.singleton_append, scan_cons_of_step hcolon,
        ih ((read_eq_some_iff b t).1 hread)]
      rfl

theorem read_rawObject {raw : List (String × List UInt8)}
    {ms : List (String × Json Literal)} (h : ReadsAs raw ms) :
    read (rawObject raw) = some (.obj ms) := by
  have hopen : step .ready '{' = some ([.openObject], .ready) := rfl
  have hcolon : step .ready ':' = some ([.colon], .ready) := rfl
  rw [read_eq_some_iff]
  cases h with
  | nil => rfl
  | @cons kb kt raw ms hm hrest =>
      obtain ⟨k, b⟩ := kb
      obtain ⟨k', t⟩ := kt
      obtain ⟨rfl, hread⟩ := hm
      rw [rawObject, Utf8.runes_bytes_append, List.cons_append, scan_cons_of_step hopen,
        List.append_assoc, scan_quote, List.singleton_append, scan_cons_of_step hcolon,
        scan_rawMembers hrest ((read_eq_some_iff b t).1 hread)]
      rfl

end I40Aas.Lib.Json
