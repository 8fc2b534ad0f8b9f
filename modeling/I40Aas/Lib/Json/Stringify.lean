import I40Aas.Lib.Json.Value

/-!
`JSON.stringify`. It escapes fewer characters than json.Marshal and writes numbers in
the same way, so the text of a value is read as the value by encoding/json too.
-/

namespace I40Aas.Lib.Json

def stringifyChar (c : Char) : List Char :=
  if c = '"' ∨ c = '\\' then ['\\', c]
  else if c.toNat = 8 then ['\\', 'b']
  else if c.toNat = 12 then ['\\', 'f']
  else if c = '\n' then ['\\', 'n']
  else if c = '\r' then ['\\', 'r']
  else if c = '\t' then ['\\', 't']
  else if c.toNat < 32 then
    ['\\', 'u', '0', '0', hexDigit (c.toNat / 16), hexDigit (c.toNat % 16)]
  else [c]

def stringifyQuote (s : String) : List Char :=
  '"' :: (s.toList.flatMap stringifyChar ++ ['"'])

/-- A character is escaped as json.Marshal does, or not at all. -/
theorem stringifyChar_cases (c : Char) :
    stringifyChar c = escapeChar c ∨
      (stringifyChar c = [c] ∧ c ≠ '"' ∧ c ≠ '\\' ∧ 32 ≤ c.toNat) := by
  by_cases hlow : c.toNat < 32
  · left
    simp only [stringifyChar, escapeChar, hlow, true_or, if_true]
  · by_cases hquote : c = '"' ∨ c = '\\'
    · left
      simp only [stringifyChar, escapeChar, hquote, if_true]
    · right
      have hn : c ≠ '\n' := by rintro rfl; exact hlow (by decide)
      have hr : c ≠ '\r' := by rintro rfl; exact hlow (by decide)
      have ht : c ≠ '\t' := by rintro rfl; exact hlow (by decide)
      refine ⟨?_, fun h => hquote (.inl h), fun h => hquote (.inr h), by omega⟩
      rw [stringifyChar, if_neg hquote, if_neg (by omega), if_neg (by omega), if_neg hn,
        if_neg hr, if_neg ht, if_neg hlow]

theorem unquote_stringifyChar (c : Char) (rest : List Char) :
    unquote (stringifyChar c ++ rest) = c :: unquote rest := by
  cases stringifyChar_cases c with
  | inl h => rw [h, unquote_escapeChar]
  | inr h =>
      rw [h.1]
      exact unquote_plain h.2.2.1 rest

theorem scan_stringifyChar (c : Char) (raw rest : List Char) :
    scan (.string raw) (stringifyChar c ++ rest) =
      scan (.string (raw ++ stringifyChar c)) rest := by
  cases stringifyChar_cases c with
  | inl h => rw [h, scan_escapeChar]
  | inr h =>
      rw [h.1]
      exact scan_plain h.2.1 h.2.2.1 h.2.2.2 raw rest

theorem unquote_flatMap_stringifyChar (s : List Char) :
    unquote (s.flatMap stringifyChar) = s := by
  induction s with
  | nil => simp [unquote]
  | cons c s ih => rw [List.flatMap_cons, unquote_stringifyChar, ih]

theorem scan_flatMap_stringifyChar (s raw rest : List Char) :
    scan (.string raw) (s.flatMap stringifyChar ++ rest) =
      scan (.string (raw ++ s.flatMap stringifyChar)) rest := by
  induction s generalizing raw with
  | nil => simp
  | cons c s ih =>
      rw [List.flatMap_cons, List.append_assoc, scan_stringifyChar, ih, List.append_assoc]

theorem quotes_stringifyQuote : Quotes stringifyQuote := by
  intro s rest
  have hopen : step .ready '"' = some ([], .string []) := rfl
  have hclose : step (.string (s.toList.flatMap stringifyChar)) '"' =
      some ([.str s], .ready) := by
    simp [step, unquote_flatMap_stringifyChar, String.ofList_toList]
  rw [stringifyQuote, List.cons_append, List.append_assoc, scan_cons_of_step hopen,
    scan_flatMap_stringifyChar, List.nil_append, List.singleton_append,
    scan_cons_of_step hclose, Option.map_map]
  rfl

section

variable {F : Type} [FloatFormat F]

def stringify (v : Json F) : List UInt8 :=
  Utf8.bytes (textWith stringifyQuote (encode v))

theorem read_stringify (v : Json F) : read (stringify v) = some (encode v) := by
  rw [read_eq_some_iff, stringify, Utf8.runes_bytes]
  exact scan_textWith quotes_stringifyQuote (encode v)

theorem unmarshal_stringify {v : Json F} (h : v.Canonical) :
    unmarshal (stringify v) = if v.depth ≤ maxNestingDepth then some v else none := by
  simp only [unmarshal, read_stringify, depth_encode, decode_encode v h]

end

end I40Aas.Lib.Json
