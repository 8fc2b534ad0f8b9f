import I40Aas.Lib.Json.Syntax

/-!
From the characters of a JSON text to its tokens. The scanner reads one character at
a time in the states of Go's encoding/json; a string literal is collected first and
unquoted at its closing quote.
-/

namespace I40Aas.Lib.Json

/-! Number literals. -/

inductive NumberState
  | neg
  | zero
  | digits
  | dot
  | fraction
  | e
  | sign
  | exponent
  deriving DecidableEq, Repr

namespace NumberState

def start (c : Char) : Option NumberState :=
  if c = '-' then some .neg
  else if c = '0' then some .zero
  else if c.isDigit then some .digits
  else none

def afterInteger (c : Char) : Option NumberState :=
  if c = '.' then some .dot
  else if c = 'e' ∨ c = 'E' then some .e
  else none

def step : NumberState → Char → Option NumberState
  | .neg, c =>
    if c = '0' then some .zero else if c.isDigit then some .digits else none
  | .zero, c => afterInteger c
  | .digits, c => if c.isDigit then some .digits else afterInteger c
  | .dot, c => if c.isDigit then some .fraction else none
  | .fraction, c =>
    if c.isDigit then some .fraction
    else if c = 'e' ∨ c = 'E' then some .e
    else none
  | .e, c =>
    if c = '+' ∨ c = '-' then some .sign
    else if c.isDigit then some .exponent
    else none
  | .sign, c => if c.isDigit then some .exponent else none
  | .exponent, c => if c.isDigit then some .exponent else none

def complete : NumberState → Bool
  | .zero | .digits | .fraction | .exponent => true
  | _ => false

def accepts : NumberState → List Char → Bool
  | s, [] => s.complete
  | s, c :: cs =>
    match s.step c with
    | some s' => s'.accepts cs
    | none => false

end NumberState

def isNumber : List Char → Bool
  | [] => false
  | c :: cs =>
    match NumberState.start c with
    | some s => s.accepts cs
    | none => false

abbrev Literal := {l : List Char // isNumber l}

/-! String literals. -/

def isSpace (c : Char) : Bool :=
  c = ' ' ∨ c = '\t' ∨ c = '\r' ∨ c = '\n'

def isHex (c : Char) : Bool :=
  c.isDigit ∨ ('a' ≤ c ∧ c ≤ 'f') ∨ ('A' ≤ c ∧ c ≤ 'F')

def hexValue (c : Char) : Nat :=
  if c.isDigit then c.toNat - '0'.toNat
  else if 'a' ≤ c then c.toNat - 'a'.toNat + 10
  else c.toNat - 'A'.toNat + 10

def getu4 (a b c d : Char) : Nat :=
  ((hexValue a * 16 + hexValue b) * 16 + hexValue c) * 16 + hexValue d

def isSurrogate (r : Nat) : Bool :=
  0xD800 ≤ r ∧ r < 0xE000

/-- The character of a surrogate pair. -/
def decodePair (r₁ r₂ : Nat) : Option Char :=
  if 0xD800 ≤ r₁ ∧ r₁ < 0xDC00 ∧ 0xDC00 ≤ r₂ ∧ r₂ < 0xE000 then
    some (Char.ofNat ((r₁ - 0xD800) * 0x400 + (r₂ - 0xDC00) + 0x10000))
  else
    none

def unescape (c : Char) : Char :=
  if c = 'b' then Char.ofNat 8
  else if c = 'f' then Char.ofNat 12
  else if c = 'n' then '\n'
  else if c = 'r' then '\r'
  else if c = 't' then '\t'
  else c

/-- The contents of a literal that the scanner has accepted. Half a surrogate pair
is read as U+FFFD. -/
def unquote : List Char → List Char
  | [] => []
  | '\\' :: 'u' :: a :: b :: c :: d :: rest =>
    if isSurrogate (getu4 a b c d) then
      -- a pair is consumed as a whole, otherwise only the first half is
      match rest with
      | '\\' :: 'u' :: a' :: b' :: c' :: d' :: rest' =>
        match decodePair (getu4 a b c d) (getu4 a' b' c' d') with
        | some r => r :: unquote rest'
        | none => '\uFFFD' :: unquote ('\\' :: 'u' :: a' :: b' :: c' :: d' :: rest')
      | rest => '\uFFFD' :: unquote rest
    else Char.ofNat (getu4 a b c d) :: unquote rest
  | '\\' :: c :: rest => unescape c :: unquote rest
  | c :: rest => c :: unquote rest

/-! The scanner. -/

inductive Mode
  | ready
  | literal (t : Token Literal) (rest : List Char)
  | number (s : NumberState) (text : List Char)
  | string (raw : List Char)
  | escape (raw : List Char)
  | unicode (digits : Nat) (raw : List Char)

def separator (c : Char) : Option (Token Literal) :=
  if c = '{' then some .openObject
  else if c = '}' then some .closeObject
  else if c = '[' then some .openArray
  else if c = ']' then some .closeArray
  else if c = ',' then some .comma
  else if c = ':' then some .colon
  else none

def begin (c : Char) : Option (List (Token Literal) × Mode) :=
  match separator c with
  | some t => some ([t], .ready)
  | none =>
    if isSpace c then some ([], .ready)
    else if c = '"' then some ([], .string [])
    else if c = 't' then some ([], .literal (.bool true) ['r', 'u', 'e'])
    else if c = 'f' then some ([], .literal (.bool false) ['a', 'l', 's', 'e'])
    else if c = 'n' then some ([], .literal .null ['u', 'l', 'l'])
    else (NumberState.start c).map fun s => ([], .number s [c])

/-- The token of a number that ends here. -/
def numberToken (text : List Char) : Option (Token Literal) :=
  if h : isNumber text then some (.num ⟨text, h⟩) else none

def step : Mode → Char → Option (List (Token Literal) × Mode)
  | .ready, c => begin c
  | .literal t [x], c => if c = x then some ([t], .ready) else none
  | .literal t (x :: rest), c => if c = x then some ([], .literal t rest) else none
  | .literal _ [], _ => none
  | .number s text, c =>
    match s.step c with
    | some s' => some ([], .number s' (text ++ [c]))
    -- the character belongs to what comes after the number
    | none => do
      let t ← numberToken text
      let (ts, m) ← begin c
      return (t :: ts, m)
  | .string raw, c =>
    if c = '"' then some ([.str (String.ofList (unquote raw))], .ready)
    else if c = '\\' then some ([], .escape (raw ++ [c]))
    else if c.toNat < 32 then none
    else some ([], .string (raw ++ [c]))
  | .escape raw, c =>
    if c = 'u' then some ([], .unicode 4 (raw ++ [c]))
    else if c ∈ ['b', 'f', 'n', 'r', 't', '\\', '/', '"'] then
      some ([], .string (raw ++ [c]))
    else none
  | .unicode 0 _, _ => none
  | .unicode (n + 1) raw, c =>
    if isHex c then
      some ([], if n = 0 then .string (raw ++ [c]) else .unicode n (raw ++ [c]))
    else none

def finish : Mode → Option (List (Token Literal))
  | .ready => some []
  | .number _ text => (numberToken text).map fun t => [t]
  | _ => none

def scan : Mode → List Char → Option (List (Token Literal))
  | m, [] => finish m
  | m, c :: cs =>
    match step m c with
    | some (ts, m') => (scan m' cs).map fun ts' => ts ++ ts'
    | none => none

theorem scan_cons_of_step {m m' : Mode} {c : Char} {ts : List (Token Literal)}
    (h : step m c = some (ts, m')) (cs : List Char) :
    scan m (c :: cs) = (scan m' cs).map fun ts' => ts ++ ts' := by
  rw [scan, h]

end I40Aas.Lib.Json
