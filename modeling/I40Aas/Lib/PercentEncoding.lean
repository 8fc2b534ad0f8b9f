import Mathlib.Data.List.Basic
import I40Aas.Lib.Utf8

/-!
Texts with percent escapes. `decodeURIComponent` reads escapes as UTF-8 and leaves every other
character as it is, a plus sign too; `none` is an error. What an encoder has written is read
back character by character: `decodeURIComponent_flatMap`.
-/

namespace I40Aas.Lib.PercentEncoding

def hexValue (c : Char) : Option Nat :=
  if '0' ≤ c ∧ c ≤ '9' then some (c.toNat - '0'.toNat)
  else if 'A' ≤ c ∧ c ≤ 'F' then some (c.toNat - 'A'.toNat + 10)
  else if 'a' ≤ c ∧ c ≤ 'f' then some (c.toNat - 'a'.toNat + 10)
  else none

def octet (x y : Char) : Option UInt8 := do
  let high ← hexValue x
  let low ← hexValue y
  return UInt8.ofNat (16 * high + low)

/-- The octets of the escapes that a text begins with, at most `n`. -/
def octets : Nat → List Char → List UInt8
  | n + 1, '%' :: x :: y :: text =>
      match octet x y with
      | some b => b :: octets n text
      | none => []
  | _, _ => []

/-- `skip` characters still belong to the escapes read before. -/
def decodeFrom : Nat → List Char → Option (List Char)
  | _, [] => some []
  | skip + 1, _ :: text => decodeFrom skip text
  | 0, c :: text =>
      if c = '%' then do
        let decoded ← (octets 4 (c :: text)).toByteArray.utf8DecodeChar? 0
        let rest ← decodeFrom (3 * decoded.utf8Size - 1) text
        return decoded :: rest
      else do
        let rest ← decodeFrom 0 text
        return c :: rest

def decodeURIComponent (text : List Char) : Option (List Char) :=
  decodeFrom 0 text

/-- `s` is an escape of the octet. -/
def IsEscape (b : UInt8) (s : List Char) : Prop :=
  ∃ x y, s = ['%', x, y] ∧ octet x y = some b

/-- `s` is read as the character, whatever comes after it. -/
def Reads (s : List Char) (c : Char) : Prop :=
  ∀ rest, decodeURIComponent (s ++ rest) = (decodeURIComponent rest).map (c :: ·)

theorem decodeFrom_eq_drop (skip : Nat) (text : List Char) :
    decodeFrom skip text = decodeURIComponent (text.drop skip) := by
  induction text generalizing skip with
  | nil => simp [decodeURIComponent, decodeFrom]
  | cons c text ih =>
      cases skip with
      | zero => rfl
      | succ skip => exact ih skip

theorem reads_literal {c : Char} (hc : c ≠ '%') : Reads [c] c := by
  intro rest
  show decodeFrom 0 (c :: rest) = _
  rw [decodeFrom, if_neg hc]
  cases hrest : decodeFrom 0 rest <;> simp [decodeURIComponent, hrest]

section

variable {esc : UInt8 → List Char} {bs : List UInt8}

theorem length_flatMap_escape (h : ∀ b ∈ bs, IsEscape b (esc b)) :
    (bs.flatMap esc).length = 3 * bs.length := by
  induction bs with
  | nil => rfl
  | cons b bs ih =>
      obtain ⟨x, y, hesc, -⟩ := h b List.mem_cons_self
      have htail := ih fun b hb => h b (List.mem_cons_of_mem _ hb)
      rw [List.flatMap_cons, List.length_append, htail, hesc, List.length_cons]
      simp only [List.length_cons, List.length_nil]
      omega

theorem octets_flatMap (h : ∀ b ∈ bs, IsEscape b (esc b)) (n : Nat) (rest : List Char) :
    octets (bs.length + n) (bs.flatMap esc ++ rest) = bs ++ octets n rest := by
  induction bs with
  | nil => simp
  | cons b bs ih =>
      obtain ⟨x, y, hesc, hoctet⟩ := h b List.mem_cons_self
      have htail := ih fun b hb => h b (List.mem_cons_of_mem _ hb)
      have hlength : (b :: bs).length + n = (bs.length + n) + 1 := by
        rw [List.length_cons]
        omega
      rw [List.flatMap_cons, hesc, hlength]
      show octets (bs.length + n + 1) ('%' :: x :: y :: (bs.flatMap esc ++ rest)) = _
      rw [octets, hoctet, htail]
      rfl

/-- The escapes of the octets of a character are read as the character. -/
theorem reads_escapes {c : Char} (h : ∀ b ∈ String.utf8EncodeChar c, IsEscape b (esc b)) :
    Reads ((String.utf8EncodeChar c).flatMap esc) c := by
  intro rest
  have hpos := c.utf8Size_pos
  have hfour := c.utf8Size_le_four
  have hsize := String.length_utf8EncodeChar c
  have hoctets := octets_flatMap h (4 - c.utf8Size) rest
  rw [hsize, Nat.add_sub_cancel' hfour] at hoctets
  have hlength := length_flatMap_escape h
  rw [hsize] at hlength
  obtain ⟨b, bs, hbytes⟩ := List.exists_cons_of_ne_nil (String.utf8EncodeChar_ne_nil (c := c))
  obtain ⟨x, y, hesc, -⟩ := h b (by simp [hbytes])
  have hcons : (String.utf8EncodeChar c).flatMap esc = '%' :: x :: y :: bs.flatMap esc := by
    rw [hbytes, List.flatMap_cons, hesc]
    rfl
  rw [hcons] at hoctets hlength ⊢
  have hdrop : 3 * c.utf8Size - 1 = (x :: y :: bs.flatMap esc).length := by
    rw [List.length_cons] at hlength
    omega
  show decodeFrom 0 ('%' :: (x :: y :: bs.flatMap esc ++ rest)) = _
  rw [decodeFrom, if_pos rfl, ← List.cons_append, hoctets, List.toByteArray_append,
    ByteArray.utf8DecodeChar?_utf8EncodeChar_append, Option.bind_eq_bind, Option.bind_some,
    decodeFrom_eq_drop, hdrop, List.drop_left]
  cases decodeURIComponent rest <;> rfl

end

/-- What is written so that every character is read as another one is read so as a whole. -/
theorem decodeURIComponent_flatMap {write : Char → List Char} {f : Char → Char}
    (h : ∀ c, Reads (write c) (f c)) (text : List Char) :
    decodeURIComponent (text.flatMap write) = some (text.map f) := by
  induction text with
  | nil => rfl
  | cons c text ih =>
      rw [List.flatMap_cons, h, ih]
      rfl

end I40Aas.Lib.PercentEncoding
