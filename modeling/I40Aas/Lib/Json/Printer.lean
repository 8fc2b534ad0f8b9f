import I40Aas.Lib.Json.Scanner

/-!
Printing a tree as json.Marshal does, and reading its tokens back. A separator ends
whatever was scanned before it, so texts that are put together with separators are
scanned one by one.
-/

namespace I40Aas.Lib.Json

def hexDigit (n : Nat) : Char :=
  if n < 10 then Char.ofNat ('0'.toNat + n) else Char.ofNat ('a'.toNat + (n - 10))

def escapeChar (c : Char) : List Char :=
  if c = '"' ∨ c = '\\' then ['\\', c]
  else if c.toNat = 8 then ['\\', 'b']
  else if c.toNat = 12 then ['\\', 'f']
  else if c = '\n' then ['\\', 'n']
  else if c = '\r' then ['\\', 'r']
  else if c = '\t' then ['\\', 't']
  else if c.toNat < 32 ∨ c = '<' ∨ c = '>' ∨ c = '&' then
    ['\\', 'u', '0', '0', hexDigit (c.toNat / 16), hexDigit (c.toNat % 16)]
  else if c.toNat = 0x2028 ∨ c.toNat = 0x2029 then
    ['\\', 'u', '2', '0', '2', hexDigit (c.toNat % 16)]
  else [c]

def escape (s : List Char) : List Char :=
  s.flatMap escapeChar

def quote (s : String) : List Char :=
  '"' :: (escape s.toList ++ ['"'])

mutual

def text : Json Literal → List Char
  | .null => ['n', 'u', 'l', 'l']
  | .bool true => ['t', 'r', 'u', 'e']
  | .bool false => ['f', 'a', 'l', 's', 'e']
  | .num l => l.val
  | .str s => quote s
  | .arr [] => ['[', ']']
  | .arr (e :: es) => '[' :: (e.text ++ textElements es)
  | .obj [] => ['{', '}']
  | .obj ((k, v) :: ms) => '{' :: (quote k ++ ':' :: (v.text ++ textMembers ms))

def textElements : List (Json Literal) → List Char
  | [] => [']']
  | e :: es => ',' :: (e.text ++ textElements es)

def textMembers : List (String × Json Literal) → List Char
  | [] => ['}']
  | (k, v) :: ms => ',' :: (quote k ++ ':' :: (v.text ++ textMembers ms))

end

/-! Separators. -/

theorem begin_separator {c : Char} {t : Token Literal} (h : separator c = some t) :
    begin c = some ([t], .ready) := by
  simp [begin, h]

theorem eq_separator {c : Char} {t : Token Literal} (h : separator c = some t) :
    c = '{' ∨ c = '}' ∨ c = '[' ∨ c = ']' ∨ c = ',' ∨ c = ':' := by
  unfold separator at h
  grind

theorem NumberState.step_separator {c : Char} {t : Token Literal}
    (h : separator c = some t) (s : NumberState) : s.step c = none := by
  rcases eq_separator h with rfl | rfl | rfl | rfl | rfl | rfl <;>
    cases s <;> decide

theorem scan_finish_separator {m : Mode} {c : Char} {t : Token Literal}
    {ts : List (Token Literal)} (hc : separator c = some t) (h : finish m = some ts)
    (back : List Char) :
    scan m (c :: back) = (scan .ready back).map fun ts' => ts ++ t :: ts' := by
  cases m with
  | ready =>
      cases h
      have hstep : step .ready c = some ([t], .ready) := begin_separator hc
      rw [scan_cons_of_step hstep]
      rfl
  | number s l =>
      simp only [finish, Option.map_eq_some_iff] at h
      obtain ⟨n, hn, rfl⟩ := h
      have hstep : step (.number s l) c = some ([n, t], .ready) := by
        simp [step, begin_separator hc, NumberState.step_separator hc, hn]
      rw [scan_cons_of_step hstep]
      rfl
  | _ => cases h

theorem scan_append_separator {c : Char} {t : Token Literal}
    (hc : separator c = some t) (back : List Char) {front : List Char} {m : Mode}
    {ts : List (Token Literal)} (h : scan m front = some ts) :
    scan m (front ++ c :: back) =
      (scan .ready back).map fun ts' => ts ++ t :: ts' := by
  induction front generalizing m ts with
  | nil => exact scan_finish_separator hc h back
  | cons x front ih =>
      rw [scan] at h
      split at h
      next ts₁ m' hstep =>
        obtain ⟨ts₂, hrest, rfl⟩ := Option.map_eq_some_iff.1 h
        rw [List.cons_append, scan_cons_of_step hstep, ih hrest, Option.map_map]
        simp [Function.comp_def]
      next => cases h

/-! Strings. -/

theorem isHex_hexDigit : ∀ n < 16, isHex (hexDigit n) = true := by
  decide

theorem unquote_plain {c : Char} (h : c ≠ '\\') (rest : List Char) :
    unquote (c :: rest) = c :: unquote rest := by
  rw [unquote]
  · grind
  · grind

theorem unquote_escape {c : Char} (h : c ≠ 'u') (rest : List Char) :
    unquote ('\\' :: c :: rest) = unescape c :: unquote rest := by
  rw [unquote]
  grind

theorem unquote_unicode {a b c d : Char} (h : isSurrogate (getu4 a b c d) = false)
    (rest : List Char) :
    unquote ('\\' :: 'u' :: a :: b :: c :: d :: rest) =
      Char.ofNat (getu4 a b c d) :: unquote rest := by
  rw [unquote.eq_def]
  simp only [h, Bool.false_eq_true, if_false]

theorem getu4_hexDigit : ∀ n < 64,
    getu4 '0' '0' (hexDigit (n / 16)) (hexDigit (n % 16)) = n := by
  decide

theorem toNat_lt_of_escaped {c : Char}
    (h : c.toNat < 32 ∨ c = '<' ∨ c = '>' ∨ c = '&') : c.toNat < 64 := by
  rcases h with h | rfl | rfl | rfl
  · omega
  all_goals decide

theorem eq_ofNat {c : Char} {n : Nat} (h : c.toNat = n) : c = Char.ofNat n := by
  rw [← h, Char.ofNat_toNat]

theorem unquote_escapeChar (c : Char) (rest : List Char) :
    unquote (escapeChar c ++ rest) = c :: unquote rest := by
  -- one case for each form of an escape
  unfold escapeChar
  split
  next h =>
    have hu : c ≠ 'u' ∧ unescape c = c := by rcases h with rfl | rfl <;> decide
    exact (unquote_escape hu.1 rest).trans (by rw [hu.2])
  split
  next h => rw [eq_ofNat h]; exact unquote_escape (by decide) rest
  split
  next h => rw [eq_ofNat h]; exact unquote_escape (by decide) rest
  split
  next h => rw [h]; exact unquote_escape (by decide) rest
  split
  next h => rw [h]; exact unquote_escape (by decide) rest
  split
  next h => rw [h]; exact unquote_escape (by decide) rest
  split
  next h =>
    have hlt := toNat_lt_of_escaped h
    have hget := getu4_hexDigit c.toNat hlt
    have hplain : isSurrogate (getu4 '0' '0' (hexDigit (c.toNat / 16))
        (hexDigit (c.toNat % 16))) = false := by
      rw [hget]
      simp [isSurrogate]
      omega
    exact (unquote_unicode hplain rest).trans (by rw [hget, Char.ofNat_toNat])
  split
  next h =>
    rcases h with h | h
    · rw [eq_ofNat h]; exact unquote_unicode (by decide) rest
    · rw [eq_ofNat h]; exact unquote_unicode (by decide) rest
  next h _ _ _ _ _ _ _ => exact unquote_plain (fun hc => h (.inr hc)) rest

theorem scan_escaped {c : Char} (h : c ∈ ['b', 'f', 'n', 'r', 't', '\\', '/', '"'])
    (raw rest : List Char) :
    scan (.string raw) ('\\' :: c :: rest) = scan (.string (raw ++ ['\\', c])) rest := by
  have hopen : step (.string raw) '\\' = some ([], .escape (raw ++ ['\\'])) := by
    simp [step]
  have hu : c ≠ 'u' := by
    rintro rfl
    exact absurd h (by decide)
  have hclose : step (.escape (raw ++ ['\\'])) c =
      some ([], .string (raw ++ ['\\', c])) := by
    simp only [step, if_neg hu, if_pos h, List.append_assoc, List.singleton_append]
  rw [scan_cons_of_step hopen, scan_cons_of_step hclose]
  simp

theorem scan_unicode {a b c d : Char} (ha : isHex a) (hb : isHex b) (hc : isHex c)
    (hd : isHex d) (raw rest : List Char) :
    scan (.string raw) ('\\' :: 'u' :: a :: b :: c :: d :: rest) =
      scan (.string (raw ++ ['\\', 'u', a, b, c, d])) rest := by
  simp [scan, step, ha, hb, hc, hd]

theorem scan_plain {c : Char} (hq : c ≠ '"') (hb : c ≠ '\\') (hc : 32 ≤ c.toNat)
    (raw rest : List Char) :
    scan (.string raw) (c :: rest) = scan (.string (raw ++ [c])) rest := by
  have hstep : step (.string raw) c = some ([], .string (raw ++ [c])) := by
    simp [step, hq, hb, Nat.not_lt.2 hc]
  rw [scan_cons_of_step hstep]
  simp

theorem scan_escapeChar (c : Char) (raw rest : List Char) :
    scan (.string raw) (escapeChar c ++ rest) =
      scan (.string (raw ++ escapeChar c)) rest := by
  unfold escapeChar
  split
  next h => exact scan_escaped (by rcases h with rfl | rfl <;> decide) raw rest
  split
  next => exact scan_escaped (by decide) raw rest
  split
  next => exact scan_escaped (by decide) raw rest
  split
  next => exact scan_escaped (by decide) raw rest
  split
  next => exact scan_escaped (by decide) raw rest
  split
  next => exact scan_escaped (by decide) raw rest
  split
  next h =>
    have hlt := toNat_lt_of_escaped h
    exact scan_unicode (by decide) (by decide) (isHex_hexDigit _ (by omega))
      (isHex_hexDigit _ (by omega)) raw rest
  split
  next =>
    exact scan_unicode (by decide) (by decide) (by decide) (isHex_hexDigit _ (by omega))
      raw rest
  next hq _ _ _ _ _ hlow _ =>
    exact scan_plain (fun hc => hq (.inl hc)) (fun hc => hq (.inr hc)) (by omega) raw rest

theorem unquote_escape_list (s : List Char) : unquote (escape s) = s := by
  induction s with
  | nil => simp [escape, unquote]
  | cons c s ih =>
      show unquote (escapeChar c ++ escape s) = c :: s
      rw [unquote_escapeChar, ih]

theorem scan_escape (s raw rest : List Char) :
    scan (.string raw) (escape s ++ rest) = scan (.string (raw ++ escape s)) rest := by
  induction s generalizing raw with
  | nil => simp [escape]
  | cons c s ih =>
      show scan _ ((escapeChar c ++ escape s) ++ rest) = _
      rw [List.append_assoc, scan_escapeChar, ih, List.append_assoc]
      rfl

theorem scan_quote (s : String) (rest : List Char) :
    scan .ready (quote s ++ rest) = (scan .ready rest).map fun ts => .str s :: ts := by
  have hopen : step .ready '"' = some ([], .string []) := rfl
  have hclose : step (.string (escape s.toList)) '"' = some ([.str s], .ready) := by
    simp [step, unquote_escape_list, String.ofList_toList]
  rw [quote, List.cons_append, List.append_assoc, scan_cons_of_step hopen, scan_escape,
    List.nil_append, List.singleton_append, scan_cons_of_step hclose, Option.map_map]
  rfl

/-! Numbers. -/

theorem scan_number {s : NumberState} {front back : List Char}
    (hs : s.accepts back = true) (hl : isNumber (front ++ back) = true) :
    scan (.number s front) back = some [.num ⟨front ++ back, hl⟩] := by
  induction back generalizing s front with
  | nil => simp [scan, finish, numberToken] at hl ⊢; exact hl
  | cons c back ih =>
      unfold NumberState.accepts at hs
      split at hs
      next s' hstep =>
        have hnext : step (.number s front) c = some ([], .number s' (front ++ [c])) := by
          simp [step, hstep]
        have hl' : isNumber ((front ++ [c]) ++ back) = true := by simpa using hl
        rw [scan_cons_of_step hnext, ih hs hl']
        simp
      next => cases hs

theorem begin_start {c : Char} {s : NumberState} (h : NumberState.start c = some s) :
    begin c = some ([], .number s [c]) := by
  have hne : ∀ x, NumberState.start x = none → c ≠ x := by
    rintro x hx rfl
    rw [hx] at h
    cases h
  have hseparator : separator c = none := by
    simp [separator, hne '{' (by decide), hne '}' (by decide), hne '[' (by decide),
      hne ']' (by decide), hne ',' (by decide), hne ':' (by decide)]
  have hspace : isSpace c = false := by
    simp [isSpace, hne ' ' (by decide), hne '\t' (by decide), hne '\r' (by decide),
      hne '\n' (by decide)]
  simp [begin, hseparator, hspace, h, hne '"' (by decide), hne 't' (by decide),
    hne 'f' (by decide), hne 'n' (by decide)]

theorem scan_literal (l : Literal) : scan .ready l.val = some [.num l] := by
  obtain ⟨l, hl⟩ := l
  cases l with
  | nil => cases hl
  | cons c cs =>
      have hnum := hl
      simp only [isNumber] at hnum
      cases hs : NumberState.start c with
      | none =>
          rw [hs] at hnum
          cases hnum
      | some s =>
          rw [hs] at hnum
          have hstep : step .ready c = some ([], .number s [c]) := begin_start hs
          rw [scan_cons_of_step hstep, scan_number hnum hl]
          rfl

/-! Trees. Another printer may quote strings in another way, as long as they are scanned
the same. -/

section

variable (quoted : String → List Char)

mutual

def textWith : Json Literal → List Char
  | .null => ['n', 'u', 'l', 'l']
  | .bool true => ['t', 'r', 'u', 'e']
  | .bool false => ['f', 'a', 'l', 's', 'e']
  | .num l => l.val
  | .str s => quoted s
  | .arr [] => ['[', ']']
  | .arr (e :: es) => '[' :: (textWith e ++ textElementsWith es)
  | .obj [] => ['{', '}']
  | .obj ((k, v) :: ms) => '{' :: (quoted k ++ ':' :: (textWith v ++ textMembersWith ms))

def textElementsWith : List (Json Literal) → List Char
  | [] => [']']
  | e :: es => ',' :: (textWith e ++ textElementsWith es)

def textMembersWith : List (String × Json Literal) → List Char
  | [] => ['}']
  | (k, v) :: ms => ',' :: (quoted k ++ ':' :: (textWith v ++ textMembersWith ms))

end

/-- The quoted string is scanned as one token. -/
def Quotes : Prop :=
  ∀ s rest, scan .ready (quoted s ++ rest) = (scan .ready rest).map fun ts => .str s :: ts

end

section

variable {quoted : String → List Char}

mutual

theorem scan_textWith (hquoted : Quotes quoted) : (t : Json Literal) →
    scan .ready (textWith quoted t) = some t.tokens
  | .null | .bool true | .bool false | .arr [] | .obj [] => by rfl
  | .num l => scan_literal l
  | .str s => by
      have h := hquoted s []
      rw [List.append_nil] at h
      exact h
  | .arr (e :: es) => by
      have hopen : step .ready '[' = some ([.openArray], .ready) := rfl
      rw [textWith, scan_cons_of_step hopen,
        scan_textElementsWith hquoted es (scan_textWith hquoted e)]
      rfl
  | .obj ((k, v) :: ms) => by
      have hopen : step .ready '{' = some ([.openObject], .ready) := rfl
      have hcolon : step .ready ':' = some ([.colon], .ready) := rfl
      rw [textWith, scan_cons_of_step hopen, hquoted, scan_cons_of_step hcolon,
        scan_textMembersWith hquoted ms (scan_textWith hquoted v)]
      rfl

-- the text before is scanned when the separator after it is reached
theorem scan_textElementsWith (hquoted : Quotes quoted) : (es : List (Json Literal)) →
    {front : List Char} → {ts : List (Token Literal)} → scan .ready front = some ts →
    scan .ready (front ++ textElementsWith quoted es) = some (ts ++ tokensElements es)
  | [], front, ts, h => by
      have hclose : separator ']' = some .closeArray := rfl
      rw [textElementsWith, scan_append_separator hclose [] h]
      rfl
  | e :: es, front, ts, h => by
      have hcomma : separator ',' = some .comma := rfl
      rw [textElementsWith, scan_append_separator hcomma _ h,
        scan_textElementsWith hquoted es (scan_textWith hquoted e)]
      rfl

theorem scan_textMembersWith (hquoted : Quotes quoted) : (ms : List (String × Json Literal)) →
    {front : List Char} → {ts : List (Token Literal)} → scan .ready front = some ts →
    scan .ready (front ++ textMembersWith quoted ms) = some (ts ++ tokensMembers ms)
  | [], front, ts, h => by
      have hclose : separator '}' = some .closeObject := rfl
      rw [textMembersWith, scan_append_separator hclose [] h]
      rfl
  | (k, v) :: ms, front, ts, h => by
      have hcomma : separator ',' = some .comma := rfl
      have hcolon : step .ready ':' = some ([.colon], .ready) := rfl
      rw [textMembersWith, scan_append_separator hcomma _ h, hquoted,
        scan_cons_of_step hcolon, scan_textMembersWith hquoted ms (scan_textWith hquoted v)]
      rfl

end

end

mutual

theorem textWith_quote : (t : Json Literal) → textWith quote t = t.text
  | .null | .bool true | .bool false | .num _ | .str _ | .arr [] | .obj [] => rfl
  | .arr (e :: es) => by
      rw [textWith, text, textWith_quote e, textElementsWith_quote es]
  | .obj ((k, v) :: ms) => by
      rw [textWith, text, textWith_quote v, textMembersWith_quote ms]

theorem textElementsWith_quote : (es : List (Json Literal)) →
    textElementsWith quote es = textElements es
  | [] => rfl
  | e :: es => by
      rw [textElementsWith, textElements, textWith_quote e, textElementsWith_quote es]

theorem textMembersWith_quote : (ms : List (String × Json Literal)) →
    textMembersWith quote ms = textMembers ms
  | [] => rfl
  | (k, v) :: ms => by
      rw [textMembersWith, textMembers, textWith_quote v, textMembersWith_quote ms]

end

theorem scan_text (t : Json Literal) : scan .ready t.text = some t.tokens := by
  rw [← textWith_quote]
  exact scan_textWith scan_quote t

end I40Aas.Lib.Json
