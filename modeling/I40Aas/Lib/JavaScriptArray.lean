import Mathlib.Data.List.Basic
import Mathlib.Data.Nat.Init
import Mathlib.Data.Int.Notation

/-!
Characters of JavaScript strings as indices of arrays, and what it means for the index `10`
that only its first digit is read.
-/

namespace I40Aas.Lib.JavaScript

/-- `s.lastIndexOf(c)` for one character. -/
def lastIndexOf (s : List Char) (c : Char) : ℤ :=
  match s.reverse.idxOf? c with
  | some k => s.length - 1 - k
  | none => -1

/-- `s.charAt(i)`, where `none` is the empty string. -/
def charAt (s : List Char) (i : ℤ) : Option Char :=
  if 0 ≤ i then s[i.toNat]? else none

/-- `ToIntegerOrInfinity` of a string with at most one character. What is no digit is white
space or not a number, and zero in both cases. -/
def toInteger : Option Char → ℕ
  | some c => if c.isDigit then c.toNat - '0'.toNat else 0
  | none => 0

/-- `array.splice(start, deleteCount)`. -/
def splice {α : Type*} (array : List α) (start deleteCount : ℕ) : List α :=
  array.take start ++ array.drop (start + deleteCount)

def leadingDigit (n : ℕ) : ℕ :=
  if n < 10 then n else leadingDigit (n / 10)

theorem leadingDigit_of_lt {n : ℕ} (h : n < 10) : leadingDigit n = n := by
  rw [leadingDigit, if_pos h]

theorem leadingDigit_le (n : ℕ) : leadingDigit n ≤ n := by
  fun_induction leadingDigit n with
  | case1 n h => exact Nat.le_refl n
  | case2 n h ih => exact Nat.le_trans ih (Nat.div_le_self n 10)

theorem leadingDigit_lt (n : ℕ) : leadingDigit n < 10 := by
  fun_induction leadingDigit n with
  | case1 n h => exact h
  | case2 n h ih => exact ih

theorem head?_toDigits (n : ℕ) :
    (Nat.toDigits 10 n).head? = some (leadingDigit n).digitChar := by
  fun_induction leadingDigit n with
  | case1 n h => rw [Nat.toDigits_of_lt_base h, List.head?_cons]
  | case2 n h ih =>
      rw [Nat.toDigits_of_base_le (by omega) (by omega), List.head?_append, ih]
      rfl

theorem toInteger_digitChar : ∀ n < 10, toInteger (some n.digitChar) = n := by
  decide

/-- Behind the last occurrence there is no other one. -/
theorem lastIndexOf_append {c : Char} {front rest : List Char} (h : c ∉ rest) :
    lastIndexOf (front ++ c :: rest) c = front.length := by
  have hreverse : (front ++ c :: rest).reverse = rest.reverse ++ c :: front.reverse := by
    simp
  have hrest : rest.reverse.findIdx? (· == c) = none := by
    apply List.findIdx?_eq_none_iff.mpr
    intro x hx
    apply beq_false_of_ne
    rintro rfl
    exact h (List.mem_reverse.mp hx)
  have hlast : (front ++ c :: rest).reverse.idxOf? c = some rest.length := by
    rw [hreverse, List.idxOf?, List.findIdx?_append, hrest, List.findIdx?_cons]
    simp
  rw [lastIndexOf, hlast]
  simp only [List.length_append, List.length_cons]
  omega

theorem charAt_append (front rest : List Char) (c : Char) :
    charAt (front ++ c :: rest) (front.length + 1) = rest.head? := by
  have hindex : ((front.length : ℤ) + 1).toNat = front.length + 1 := by omega
  rw [charAt, if_pos (by omega), hindex, List.getElem?_append_right (Nat.le_add_right _ 1),
    Nat.add_sub_cancel_left, List.getElem?_cons_succ, List.head?_eq_getElem?]

section

variable {α : Type*} {l : List α} {d i : ℕ}

theorem splice_one (l : List α) (i : ℕ) : splice l i 1 = l.eraseIdx i :=
  (List.eraseIdx_eq_take_drop_succ l i).symm

/-- Two indices give the same list exactly if all from one to the other have the same
element. -/
theorem eraseIdx_eq_eraseIdx_iff (hle : d ≤ i) :
    l.eraseIdx d = l.eraseIdx i ↔ ∀ k, d ≤ k → k ≤ i → l[k]? = l[i]? := by
  constructor
  · intro h k hd hk
    -- The elements between the indices are shifted by one.
    have hshift : ∀ k, d ≤ k → k < i → l[k]? = l[k + 1]? := by
      intro k hd hk
      have hget := congrArg (fun l => l[k]?) h
      simp only [List.getElem?_eraseIdx] at hget
      rw [if_neg (by omega), if_pos hk] at hget
      exact hget.symm
    induction hk using Nat.decreasingInduction with
    | self => rfl
    | of_succ k hk ih => exact (hshift k hd hk).trans (ih (Nat.le_succ_of_le hd))
  · intro h
    ext1 k
    simp only [List.getElem?_eraseIdx]
    by_cases hd : k < d
    · rw [if_pos hd, if_pos (by omega)]
    · rw [if_neg hd]
      by_cases hi : k < i
      · rw [if_pos hi, h k (by omega) (by omega), h (k + 1) (by omega) hi]
      · rw [if_neg hi]

end

end I40Aas.Lib.JavaScript
