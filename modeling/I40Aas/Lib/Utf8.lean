import Mathlib.Tactic.Common

/-!
UTF-8 text that may be broken. `runes` reads a byte sequence the way Go converts a
string to runes: a byte that begins no encoded character is read as U+FFFD and
skipped on its own. `bytes` is the encoding of a text. An ASCII byte is never part
of a longer character, so `runes` may be computed on both sides of it separately.
-/

namespace I40Aas.Lib.Utf8

def bytes (text : List Char) : List UInt8 :=
  text.flatMap String.utf8EncodeChar

/-- The first character and the number of bytes it takes. -/
def decodeRune (input : List UInt8) : Char × Nat :=
  match (input.take 4).toByteArray.utf8DecodeChar? 0 with
  | some c => (c, c.utf8Size)
  | none => ('\uFFFD', 1)

/-- `skip` bytes still belong to the character read before. -/
def runesFrom : Nat → List UInt8 → List Char
  | _, [] => []
  | skip + 1, _ :: input => runesFrom skip input
  | 0, b :: input =>
    (decodeRune (b :: input)).1 :: runesFrom ((decodeRune (b :: input)).2 - 1) input

def runes (input : List UInt8) : List Char :=
  runesFrom 0 input

@[simp] theorem bytes_nil : bytes [] = [] := rfl

@[simp] theorem bytes_cons (c : Char) (text : List Char) :
    bytes (c :: text) = String.utf8EncodeChar c ++ bytes text := rfl

theorem runesFrom_eq_drop (skip : Nat) (input : List UInt8) :
    runesFrom skip input = runes (input.drop skip) := by
  induction input generalizing skip with
  | nil => simp [runes, runesFrom]
  | cons b input ih =>
      cases skip with
      | zero => rfl
      | succ skip => simpa [runesFrom] using ih skip

theorem decodeRune_size_pos (input : List UInt8) : 0 < (decodeRune input).2 := by
  unfold decodeRune
  split
  · exact Char.utf8Size_pos _
  · exact Nat.one_pos

theorem runes_eq_cons {input : List UInt8} (h : input ≠ []) :
    runes input =
      (decodeRune input).1 :: runes (input.drop (decodeRune input).2) := by
  cases input with
  | nil => exact absurd rfl h
  | cons b input =>
      have hpos := decodeRune_size_pos (b :: input)
      obtain ⟨n, hn⟩ : ∃ n, (decodeRune (b :: input)).2 = n + 1 :=
        ⟨(decodeRune (b :: input)).2 - 1, by omega⟩
      conv_lhs => rw [runes, runesFrom, runesFrom_eq_drop]
      rw [hn]
      rfl

/-! Reading back what was encoded. -/

theorem decodeRune_encodeChar (c : Char) (rest : List UInt8) :
    decodeRune (String.utf8EncodeChar c ++ rest) = (c, c.utf8Size) := by
  have hlen := String.length_utf8EncodeChar c
  have hfour := c.utf8Size_le_four
  have htake : (String.utf8EncodeChar c ++ rest).take 4 =
      String.utf8EncodeChar c ++ rest.take (4 - c.utf8Size) := by
    rw [List.take_append, hlen, List.take_of_length_le (by omega)]
  unfold decodeRune
  rw [htake, List.toByteArray_append, ByteArray.utf8DecodeChar?_utf8EncodeChar_append]

theorem runes_bytes_append (text : List Char) (rest : List UInt8) :
    runes (bytes text ++ rest) = text ++ runes rest := by
  induction text with
  | nil => rfl
  | cons c text ih =>
      have hne : String.utf8EncodeChar c ++ (bytes text ++ rest) ≠ [] := by
        simp [String.utf8EncodeChar_ne_nil]
      rw [bytes_cons, List.append_assoc, runes_eq_cons hne, decodeRune_encodeChar,
        ← String.length_utf8EncodeChar, List.drop_left, ih]
      rfl

@[simp] theorem runes_bytes (text : List Char) : runes (bytes text) = text := by
  simpa [runes, runesFrom] using runes_bytes_append text []

/-! Splitting before a byte that begins a character: no broken character before it
takes it in. -/

theorem length_take_encodeChar_le {c : Char} {front back l : List UInt8} {b : UInt8}
    (hb : b.IsUTF8FirstByte) (hfront : front ≠ [])
    (h : front ++ b :: back = String.utf8EncodeChar c ++ l) :
    (String.utf8EncodeChar c).length ≤ front.length := by
  by_contra hlt
  have hlen : front.length < (String.utf8EncodeChar c).length := by omega
  have hbyte : (String.utf8EncodeChar c)[front.length] = b := by
    have hget : (front ++ b :: back)[front.length]? = some b := by simp
    rw [h, List.getElem?_append_left hlen, List.getElem?_eq_getElem hlen] at hget
    exact Option.some.inj hget
  have hzero : front.length = 0 :=
    UInt8.isUTF8FirstByte_getElem_utf8EncodeChar.1 (hbyte ▸ hb)
  exact hfront (List.length_eq_zero_iff.1 hzero)

theorem utf8DecodeChar?_append_firstByte {front back : List UInt8} {b : UInt8}
    (hb : b.IsUTF8FirstByte) (hfront : front ≠ []) :
    (front ++ b :: back).toByteArray.utf8DecodeChar? 0 =
      front.toByteArray.utf8DecodeChar? 0 := by
  cases h : front.toByteArray.utf8DecodeChar? 0 with
  | some c =>
      rw [List.toByteArray_append]
      exact ByteArray.utf8DecodeChar?_append_eq_some h _
  | none =>
      rw [Option.eq_none_iff_forall_ne_some]
      intro c hc
      -- a character read here would end before `b`, so it is one of `front` already
      obtain ⟨l, hl⟩ := ByteArray.exists_of_utf8DecodeChar?_eq_some hc
      have hsplit : front ++ b :: back = String.utf8EncodeChar c ++ l.data.toList := by
        have := congrArg (fun a => a.data.toList) hl
        simpa using this
      have hle := length_take_encodeChar_le hb hfront hsplit
      have hprefix : String.utf8EncodeChar c <+: front :=
        List.prefix_of_prefix_length_le (List.prefix_append _ _)
          (hsplit ▸ List.prefix_append front (b :: back)) hle
      obtain ⟨rest, hrest⟩ := hprefix
      rw [← hrest, List.toByteArray_append,
        ByteArray.utf8DecodeChar?_utf8EncodeChar_append] at h
      cases h

theorem decodeRune_append_firstByte {front back : List UInt8} {b : UInt8}
    (hb : b.IsUTF8FirstByte) (hfront : front ≠ []) :
    decodeRune (front ++ b :: back) = decodeRune front := by
  unfold decodeRune
  by_cases hlen : 4 ≤ front.length
  · rw [List.take_append_of_le_length hlen]
  · obtain ⟨n, hn⟩ : ∃ n, 4 - front.length = n + 1 := ⟨3 - front.length, by omega⟩
    rw [List.take_append, List.take_of_length_le (l := front) (by omega), hn,
      List.take_succ_cons, utf8DecodeChar?_append_firstByte hb hfront]

theorem decodeRune_size_le {input : List UInt8} (h : input ≠ []) :
    (decodeRune input).2 ≤ input.length := by
  unfold decodeRune
  split
  next c hc =>
    have hsize := ByteArray.le_size_of_utf8DecodeChar?_eq_some hc
    simp at hsize
    omega
  next => exact List.length_pos_iff.2 h

theorem runes_append_firstByte {back : List UInt8} {b : UInt8}
    (hb : b.IsUTF8FirstByte) (front : List UInt8) :
    runes (front ++ b :: back) = runes front ++ runes (b :: back) := by
  -- on the bytes left in `front`: each step drops as many as one character takes
  induction hn : front.length using Nat.strongRecOn generalizing front with
  | ind n ih =>
      by_cases hfront : front = []
      · simp [hfront, runes, runesFrom]
      · have hsize := decodeRune_size_le hfront
        have hpos := decodeRune_size_pos front
        have hdrop : (front ++ b :: back).drop (decodeRune front).2 =
            front.drop (decodeRune front).2 ++ b :: back := by
          rw [List.drop_append_of_le_length hsize]
        rw [runes_eq_cons (by simp), decodeRune_append_firstByte hb hfront, hdrop,
          ih _ (by rw [← hn, List.length_drop]; omega) _ rfl, runes_eq_cons hfront]
        rfl

/-- Text after any bytes is read as that text. -/
theorem runes_append_bytes (front : List UInt8) {text : List Char} (h : text ≠ [])
    (back : List UInt8) :
    runes (front ++ (bytes text ++ back)) = runes front ++ (text ++ runes back) := by
  obtain ⟨c, text, rfl⟩ := List.exists_cons_of_ne_nil h
  obtain ⟨b, more, hb⟩ := List.exists_cons_of_ne_nil (String.utf8EncodeChar_ne_nil (c := c))
  have hfirst : b.IsUTF8FirstByte := by
    have := UInt8.isUTF8FirstByte_getElem_zero_utf8EncodeChar (c := c)
    simpa [hb] using this
  have hread := runes_bytes_append (c :: text) back
  rw [bytes_cons, hb, List.cons_append, List.cons_append] at hread ⊢
  rw [runes_append_firstByte hfirst, hread]

/-! An ASCII character is its own byte, and no other character has an ASCII byte. -/

theorem encodeChar_ascii {c : Char} (h : c.toNat < 128) :
    String.utf8EncodeChar c = [UInt8.ofNat c.toNat] := by
  have hval : c.val.toNat = c.toNat := rfl
  unfold String.utf8EncodeChar
  rw [if_pos (by omega)]
  rfl

theorem le_toNat_of_mem_encodeChar {c : Char} {b : UInt8} (h : 128 ≤ c.toNat)
    (hb : b ∈ String.utf8EncodeChar c) : 128 ≤ b.toNat := by
  have hval : c.val.toNat = c.toNat := rfl
  unfold String.utf8EncodeChar at hb
  rw [if_neg (by omega)] at hb
  split at hb
  · simp only [List.mem_cons, List.not_mem_nil, or_false] at hb
    rcases hb with rfl | rfl <;> simp only [UInt8.toNat_ofNat'] <;> omega
  · split at hb
    · simp only [List.mem_cons, List.not_mem_nil, or_false] at hb
      rcases hb with rfl | rfl | rfl <;> simp only [UInt8.toNat_ofNat'] <;> omega
    · simp only [List.mem_cons, List.not_mem_nil, or_false] at hb
      rcases hb with rfl | rfl | rfl | rfl <;> simp only [UInt8.toNat_ofNat'] <;> omega

end I40Aas.Lib.Utf8
