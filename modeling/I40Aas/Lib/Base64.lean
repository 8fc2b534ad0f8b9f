import Mathlib.Tactic.Common

/-! Base64 with padding: `decode_encode` is the round trip. -/

namespace I40Aas.Lib.Base64

def alphabet : List Char :=
  "ABCDEFGHIJKLMNOPQRSTUVWXYZabcdefghijklmnopqrstuvwxyz0123456789+/".toList

def digit (n : Nat) : Char :=
  alphabet.getD n '='

def value (c : Char) : Nat :=
  alphabet.idxOf c

def encode : List UInt8 → List Char
  | a :: b :: c :: rest =>
    digit (a.toNat / 4) :: digit (a.toNat % 4 * 16 + b.toNat / 16) ::
      digit (b.toNat % 16 * 4 + c.toNat / 64) :: digit (c.toNat % 64) :: encode rest
  | [a, b] =>
    [digit (a.toNat / 4), digit (a.toNat % 4 * 16 + b.toNat / 16), digit (b.toNat % 16 * 4), '=']
  | [a] => [digit (a.toNat / 4), digit (a.toNat % 4 * 16), '=', '=']
  | [] => []

def decode : List Char → List UInt8
  | w :: x :: y :: z :: rest =>
    let first := UInt8.ofNat (value w * 4 + value x / 16)
    let second := UInt8.ofNat (value x % 16 * 16 + value y / 4)
    let third := UInt8.ofNat (value y % 4 * 64 + value z)
    if y = '=' then [first]
    else if z = '=' then [first, second]
    else first :: second :: third :: decode rest
  | _ => []

theorem value_digit : ∀ n < 64, value (digit n) = n := by
  decide +kernel

theorem digit_ne_pad : ∀ n < 64, digit n ≠ '=' := by
  decide +kernel

theorem eq_ofNat {a : UInt8} {n : Nat} (h : n = a.toNat) : UInt8.ofNat n = a := by
  rw [h, UInt8.ofNat_toNat]

theorem decode_encode (input : List UInt8) : decode (encode input) = input := by
  fun_induction encode input with
  | case1 a b c rest ih =>
      have ha := a.toNat_lt
      have hb := b.toNat_lt
      have hc := c.toNat_lt
      have hw := value_digit (a.toNat / 4) (by omega)
      have hx := value_digit (a.toNat % 4 * 16 + b.toNat / 16) (by omega)
      have hy := value_digit (b.toNat % 16 * 4 + c.toNat / 64) (by omega)
      have hz := value_digit (c.toNat % 64) (by omega)
      rw [decode, if_neg (digit_ne_pad _ (by omega)), if_neg (digit_ne_pad _ (by omega)),
        hw, hx, hy, hz, ih, eq_ofNat (a := a) (by omega), eq_ofNat (a := b) (by omega),
        eq_ofNat (a := c) (by omega)]
  | case2 a b =>
      have ha := a.toNat_lt
      have hb := b.toNat_lt
      have hw := value_digit (a.toNat / 4) (by omega)
      have hx := value_digit (a.toNat % 4 * 16 + b.toNat / 16) (by omega)
      have hy := value_digit (b.toNat % 16 * 4) (by omega)
      rw [decode, if_neg (digit_ne_pad _ (by omega)), if_pos rfl, hw, hx, hy,
        eq_ofNat (a := a) (by omega), eq_ofNat (a := b) (by omega)]
  | case3 a =>
      have ha := a.toNat_lt
      have hw := value_digit (a.toNat / 4) (by omega)
      have hx := value_digit (a.toNat % 4 * 16) (by omega)
      rw [decode, if_pos rfl, hw, hx, eq_ofNat (a := a) (by omega)]
  | case4 => rfl

end I40Aas.Lib.Base64
