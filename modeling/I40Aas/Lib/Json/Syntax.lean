import Mathlib.Tactic.Common

/-!
JSON trees over a type of numbers, their tokens and the parser of a token sequence.
`parse_eq_some_iff` says that the parser accepts exactly the token sequences of
trees. Over literals a tree is the syntax of a text, and its objects keep every
member in the order of the text.
-/

namespace I40Aas.Lib

inductive Json (N : Type)
  | null
  | bool (b : Bool)
  | num (n : N)
  | str (s : String)
  | arr (elements : List (Json N))
  | obj (members : List (String × Json N))
  deriving Repr

inductive Token (N : Type)
  | null
  | bool (b : Bool)
  | num (n : N)
  | str (s : String)
  | openArray
  | closeArray
  | openObject
  | closeObject
  | comma
  | colon
  deriving DecidableEq, Repr

namespace Json

variable {N : Type}

/-! How deep arrays and objects are nested. -/

mutual

def depth : Json N → Nat
  | .arr es => depthElements es + 1
  | .obj ms => depthMembers ms + 1
  | _ => 0

def depthElements : List (Json N) → Nat
  | [] => 0
  | e :: es => max e.depth (depthElements es)

def depthMembers : List (String × Json N) → Nat
  | [] => 0
  | (_, v) :: ms => max v.depth (depthMembers ms)

end

mutual

def tokens : Json N → List (Token N)
  | .null => [.null]
  | .bool b => [.bool b]
  | .num n => [.num n]
  | .str s => [.str s]
  | .arr [] => [.openArray, .closeArray]
  | .arr (e :: es) => .openArray :: (e.tokens ++ tokensElements es)
  | .obj [] => [.openObject, .closeObject]
  | .obj ((k, v) :: ms) =>
    .openObject :: .str k :: .colon :: (v.tokens ++ tokensMembers ms)

/-- The elements after the first one, with the closing bracket. -/
def tokensElements : List (Json N) → List (Token N)
  | [] => [.closeArray]
  | e :: es => .comma :: (e.tokens ++ tokensElements es)

/-- The members after the first one, with the closing brace. -/
def tokensMembers : List (String × Json N) → List (Token N)
  | [] => [.closeObject]
  | (k, v) :: ms => .comma :: .str k :: .colon :: (v.tokens ++ tokensMembers ms)

end

/-! Recursive descent. The number bounds the calls, and one for each token is enough. -/

mutual

def value : Nat → List (Token N) → Option (Json N × List (Token N))
  | _ + 1, .null :: ts => some (.null, ts)
  | _ + 1, .bool b :: ts => some (.bool b, ts)
  | _ + 1, .num l :: ts => some (.num l, ts)
  | _ + 1, .str s :: ts => some (.str s, ts)
  | _ + 1, .openArray :: .closeArray :: ts => some (.arr [], ts)
  -- the tokens do not begin with the closing bracket here
  | n + 1, .openArray :: ts => do
    let (e, ts) ← value n ts
    let (es, ts) ← elements n ts
    return (.arr (e :: es), ts)
  | _ + 1, .openObject :: .closeObject :: ts => some (.obj [], ts)
  | n + 1, .openObject :: .str k :: .colon :: ts => do
    let (v, ts) ← value n ts
    let (ms, ts) ← members n ts
    return (.obj ((k, v) :: ms), ts)
  | _, _ => none

def elements : Nat → List (Token N) → Option (List (Json N) × List (Token N))
  | _ + 1, .closeArray :: ts => some ([], ts)
  | n + 1, .comma :: ts => do
    let (e, ts) ← value n ts
    let (es, ts) ← elements n ts
    return (e :: es, ts)
  | _, _ => none

def members : Nat → List (Token N) → Option (List (String × Json N) × List (Token N))
  | _ + 1, .closeObject :: ts => some ([], ts)
  | n + 1, .comma :: .str k :: .colon :: ts => do
    let (v, ts) ← value n ts
    let (ms, ts) ← members n ts
    return ((k, v) :: ms, ts)
  | _, _ => none

end

def parse (ts : List (Token N)) : Option (Json N) :=
  match value ts.length ts with
  | some (t, []) => some t
  | _ => none

/-! What was read are the tokens of the result. -/

theorem value_sound_step {n : Nat}
    (hvalue : ∀ (ts : List (Token N)) t rest, value n ts = some (t, rest) →
      ts = t.tokens ++ rest)
    (helements : ∀ (ts : List (Token N)) es rest, elements n ts = some (es, rest) →
      ts = tokensElements es ++ rest)
    (hmembers : ∀ (ts : List (Token N)) ms rest, members n ts = some (ms, rest) →
      ts = tokensMembers ms ++ rest)
    (ts : List (Token N)) (t : Json N) (rest : List (Token N))
    (h : value (n + 1) ts = some (t, rest)) : ts = t.tokens ++ rest := by
  unfold value at h
  split at h
  -- arrays and objects that are not empty; every other case is one or two tokens
  case h_6 m ts₀ hne hm =>
    cases hm
    simp only [Option.bind_eq_bind, Option.bind_eq_some_iff] at h
    obtain ⟨⟨e, ts₁⟩, he, ⟨es, ts₂⟩, hes, heq⟩ := h
    cases heq
    have htail : ts₁ = _ := helements _ _ _ hes
    simp [hvalue _ _ _ he, htail, tokens]
  case h_8 m k ts₀ hm =>
    cases hm
    simp only [Option.bind_eq_bind, Option.bind_eq_some_iff] at h
    obtain ⟨⟨v, ts₁⟩, hv, ⟨ms, ts₂⟩, hms, heq⟩ := h
    cases heq
    have htail : ts₁ = _ := hmembers _ _ _ hms
    simp [hvalue _ _ _ hv, htail, tokens]
  case h_9 => cases h
  all_goals
    cases h
    simp_all [tokens]

theorem descent_sound (n : Nat) :
    (∀ (ts : List (Token N)) t rest, value n ts = some (t, rest) →
      ts = t.tokens ++ rest) ∧
    (∀ (ts : List (Token N)) es rest, elements n ts = some (es, rest) →
      ts = tokensElements es ++ rest) ∧
    (∀ (ts : List (Token N)) ms rest, members n ts = some (ms, rest) →
      ts = tokensMembers ms ++ rest) := by
  induction n with
  | zero => simp [value, elements, members]
  | succ n ih =>
      obtain ⟨hvalue, helements, hmembers⟩ := ih
      refine ⟨value_sound_step hvalue helements hmembers, ?_, ?_⟩
      · intro ts es rest h
        unfold elements at h
        split at h
        case h_1 =>
          cases h
          simp_all [tokensElements]
        case h_2 ts' m ts₀ hm =>
          cases hm
          simp only [Option.bind_eq_bind, Option.bind_eq_some_iff] at h
          obtain ⟨⟨e, ts₁⟩, he, ⟨es, ts₂⟩, hes, heq⟩ := h
          cases heq
          have htail : ts₁ = _ := helements _ _ _ hes
          simp [hvalue _ _ _ he, htail, tokensElements]
        case h_3 => cases h
      · intro ts ms rest h
        unfold members at h
        split at h
        case h_1 =>
          cases h
          simp_all [tokensMembers]
        case h_2 m k ts₀ hm =>
          cases hm
          simp only [Option.bind_eq_bind, Option.bind_eq_some_iff] at h
          obtain ⟨⟨v, ts₁⟩, hv, ⟨ms, ts₂⟩, hms, heq⟩ := h
          cases heq
          have htail : ts₁ = _ := hmembers _ _ _ hms
          simp [hvalue _ _ _ hv, htail, tokensMembers]
        case h_3 => cases h

/-! A tree is read back from its tokens. -/

theorem tokens_ne_closeArray (t : Json N) (rest more : List (Token N)) :
    t.tokens ++ rest ≠ .closeArray :: more := by
  cases t with
  | arr es => cases es <;> simp [tokens]
  | obj ms => cases ms <;> simp [tokens]
  | _ => simp [tokens]

theorem value_openArray {n : Nat} {ts : List (Token N)}
    (h : ∀ more, ts ≠ .closeArray :: more) :
    value (n + 1) (.openArray :: ts) = (do
      let (e, ts) ← value n ts
      let (es, ts) ← elements n ts
      return (.arr (e :: es), ts)) := by
  rw [value]
  exact fun more => h more

mutual

theorem value_tokens : (t : Json N) → ∀ n rest, t.tokens.length ≤ n →
    value n (t.tokens ++ rest) = some (t, rest)
  | t, 0, _, h => by
      cases t with
      | arr es => cases es <;> simp [tokens] at h
      | obj ms => cases ms <;> simp [tokens] at h
      | _ => simp [tokens] at h
  | .null, n + 1, rest, _ | .bool _, n + 1, rest, _ | .num _, n + 1, rest, _
  | .str _, n + 1, rest, _ | .arr [], n + 1, rest, _ | .obj [], n + 1, rest, _ => by
      simp [tokens, value]
  | .arr (e :: es), n + 1, rest, h => by
      simp only [tokens, List.length_cons, List.length_append] at h
      have he := value_tokens e n (tokensElements es ++ rest) (by omega)
      have hes := elements_tokens es n rest (by omega)
      rw [tokens, List.cons_append, List.append_assoc,
        value_openArray (tokens_ne_closeArray e _), he]
      simp [hes]
  | .obj ((k, v) :: ms), n + 1, rest, h => by
      simp only [tokens, List.length_cons, List.length_append] at h
      have hv := value_tokens v n (tokensMembers ms ++ rest) (by omega)
      have hms := members_tokens ms n rest (by omega)
      simp [tokens, value, hv, hms]

theorem elements_tokens : (es : List (Json N)) → ∀ n rest,
    (tokensElements es).length ≤ n →
    elements n (tokensElements es ++ rest) = some (es, rest)
  | [], 0, _, h | _ :: _, 0, _, h => by simp [tokensElements] at h
  | [], n + 1, rest, _ => by simp [tokensElements, elements]
  | e :: es, n + 1, rest, h => by
      simp only [tokensElements, List.length_cons, List.length_append] at h
      have he := value_tokens e n (tokensElements es ++ rest) (by omega)
      have hes := elements_tokens es n rest (by omega)
      simp [tokensElements, elements, he, hes]

theorem members_tokens : (ms : List (String × Json N)) → ∀ n rest,
    (tokensMembers ms).length ≤ n →
    members n (tokensMembers ms ++ rest) = some (ms, rest)
  | [], 0, _, h | (_, _) :: _, 0, _, h => by simp [tokensMembers] at h
  | [], n + 1, rest, _ => by simp [tokensMembers, members]
  | (k, v) :: ms, n + 1, rest, h => by
      simp only [tokensMembers, List.length_cons, List.length_append] at h
      have hv := value_tokens v n (tokensMembers ms ++ rest) (by omega)
      have hms := members_tokens ms n rest (by omega)
      simp [tokensMembers, members, hv, hms]

end

theorem parse_eq_some_iff (ts : List (Token N)) (t : Json N) :
    parse ts = some t ↔ ts = t.tokens := by
  constructor
  · intro h
    unfold parse at h
    split at h
    next t' hvalue =>
      cases h
      simpa using (descent_sound _).1 _ _ _ hvalue
    next => cases h
  · rintro rfl
    have hvalue := value_tokens t t.tokens.length [] (Nat.le_refl _)
    rw [List.append_nil] at hvalue
    simp [parse, hvalue]

theorem tokens_inj {t u : Json N} : t.tokens = u.tokens ↔ t = u := by
  constructor
  · intro h
    have ht := (parse_eq_some_iff t.tokens t).2 rfl
    have hu := (parse_eq_some_iff t.tokens u).2 h
    exact Option.some.inj (ht.symm.trans hu)
  · exact congrArg tokens

instance [DecidableEq N] : DecidableEq (Json N) := fun _ _ =>
  decidable_of_iff _ tokens_inj

end Json

end I40Aas.Lib
