import I40Aas.Lib.Json.Value

/-!
Natural numbers as number literals. A literal without sign, point and exponent is
the decimal text of one number only, and a number type may have all of them up to
some bound.
-/

namespace I40Aas.Lib.Json

theorem isDigit_toDigits {n : ℕ} {c : Char} (h : c ∈ Nat.toDigits 10 n) : c.isDigit :=
  Nat.isDigit_of_mem_toDigits (by omega) (Nat.le_refl 10) h

theorem digitChar_ne_zero : ∀ n < 10, 0 < n → n.digitChar ≠ '0' := by
  decide

/-- There are no leading zeros. -/
theorem toDigits_eq_cons {n : ℕ} (h : 0 < n) :
    ∃ c cs, Nat.toDigits 10 n = c :: cs ∧ c ≠ '0' := by
  induction n using Nat.strongRecOn with
  | ind n ih =>
      by_cases hlt : n < 10
      · exact ⟨n.digitChar, [], Nat.toDigits_of_lt_base hlt, digitChar_ne_zero n hlt h⟩
      · obtain ⟨c, cs, heq, hc⟩ := ih (n / 10) (by omega) (by omega)
        refine ⟨c, cs ++ [(n % 10).digitChar], ?_, hc⟩
        rw [Nat.toDigits_of_base_le (by omega) (by omega), heq]
        rfl

theorem accepts_digits {cs : List Char} (h : ∀ c ∈ cs, c.isDigit) :
    NumberState.digits.accepts cs = true := by
  induction cs with
  | nil => rfl
  | cons c cs ih =>
      have hc : c.isDigit := h c List.mem_cons_self
      simp only [NumberState.accepts, NumberState.step, hc, if_true]
      exact ih fun d hd => h d (List.mem_cons_of_mem c hd)

theorem isNumber_toDigits (n : ℕ) : isNumber (Nat.toDigits 10 n) = true := by
  by_cases hzero : n = 0
  · subst hzero
    rfl
  obtain ⟨c, cs, heq, hc⟩ := toDigits_eq_cons (Nat.pos_of_ne_zero hzero)
  have hdigits : ∀ d ∈ c :: cs, d.isDigit := fun d hd =>
    isDigit_toDigits (n := n) (by rw [heq]; exact hd)
  have hdigit : c.isDigit := hdigits c List.mem_cons_self
  have hsign : c ≠ '-' := by
    rintro rfl
    exact absurd hdigit (by decide)
  have hstart : NumberState.start c = some .digits := by
    simp [NumberState.start, hsign, hc, hdigit]
  rw [heq, isNumber, hstart]
  exact accepts_digits fun d hd => hdigits d (List.mem_cons_of_mem c hd)

def decimal (n : ℕ) : Literal :=
  ⟨Nat.toDigits 10 n, isNumber_toDigits n⟩

def natOf (l : Literal) : Option ℕ :=
  if l.val.all Char.isDigit then some (Nat.ofDigitChars 10 l.val 0) else none

theorem natOf_decimal (n : ℕ) : natOf (decimal n) = some n := by
  have hdigits : (Nat.toDigits 10 n).all Char.isDigit = true :=
    List.all_eq_true.2 fun _ hc => isDigit_toDigits hc
  rw [natOf, decimal, if_pos hdigits, Nat.ofDigitChars_ten_toDigits]

/-- The natural numbers below the bound are numbers of their own, and are printed as
decimals. -/
def Exact (F : Type) [FloatFormat F] (bound : ℕ) : Prop :=
  ∀ n < bound, ∃ x : F, FloatFormat.parseFloat (decimal n) = some x ∧
    FloatFormat.formatFloat x = decimal n

/-- The natural numbers without a bound. -/
instance : FloatFormat ℕ where
  parseFloat := natOf
  formatFloat := decimal
  parse_format := natOf_decimal

theorem exact_nat (bound : ℕ) : Exact ℕ bound :=
  fun n _ => ⟨n, natOf_decimal n, rfl⟩

end I40Aas.Lib.Json
