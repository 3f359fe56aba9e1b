import Verdant.Library.Text

/-!
# Fixed-point text

The digits of a number with a fixed number of places after the point: the whole part without leading zeros, the rest padded
with them.  Without the point they are the digits of the number itself (`ofDigitChars_fixedPoint`).
-/

namespace TextCodec

theorem utf8Size_digit {c : Char} (h : c.isDigit = true) : c.utf8Size = 1 := by
  rw [Char.isDigit, Bool.and_eq_true, decide_eq_true_eq, decide_eq_true_eq] at h
  rw [Char.utf8Size_eq_one_iff]
  exact UInt32.le_trans h.2 (by decide)

theorem utf8Size_digits {cs : List Char} (h : ∀ c ∈ cs, c.isDigit = true) : (cs.map Char.utf8Size).sum = cs.length := by
  induction cs with
  | nil => rfl
  | cons c cs ih =>
    rw [List.map_cons, List.sum_cons, ih fun d hd => h d (List.mem_cons_of_mem _ hd), utf8Size_digit (h c List.mem_cons_self),
      List.length_cons, Nat.add_comm]

/-- The digits of a number, with zeros in front up to a width. -/
def zeroPadded (width n : Nat) : List Char :=
  List.replicate (width - (Nat.toDigits 10 n).length) '0' ++ Nat.toDigits 10 n

theorem isDigit_zeroPadded {width n : Nat} {c : Char} (h : c ∈ zeroPadded width n) : c.isDigit = true := by
  rcases List.mem_append.1 h with hzero | hdigit
  · rw [List.eq_of_mem_replicate hzero]
    rfl
  · exact Nat.isDigit_of_mem_toDigits (by decide) (by decide) hdigit

theorem length_zeroPadded {width n : Nat} (hwidth : 0 < width) (h : n < 10 ^ width) :
    (zeroPadded width n).length = width := by
  have hfits := (Nat.length_toDigits_le_iff (by decide) hwidth).2 h
  rw [zeroPadded, List.length_append, List.length_replicate]
  omega

theorem ofDigitChars_zeroPadded (width n init : Nat) :
    Nat.ofDigitChars 10 (zeroPadded width n) init = 10 ^ (zeroPadded width n).length * init + n := by
  rw [Nat.ofDigitChars_eq_ofDigitChars_zero, zeroPadded, Nat.ofDigitChars_append, Nat.ofDigitChars_replicate_zero,
    Nat.mul_zero, Nat.ofDigitChars_ten_toDigits]

/-- Without the point, a whole part and its places are one number. -/
theorem ofDigitChars_fixedPoint {places : Nat} (hplaces : 0 < places) (n : Nat) :
    Nat.ofDigitChars 10 (Nat.toDigits 10 (n / 10 ^ places) ++ zeroPadded places (n % 10 ^ places)) 0 = n := by
  have hrest : n % 10 ^ places < 10 ^ places := Nat.mod_lt _ (by positivity)
  rw [Nat.ofDigitChars_append, Nat.ofDigitChars_ten_toDigits, ofDigitChars_zeroPadded, length_zeroPadded hplaces hrest]
  exact Nat.div_add_mod _ _

/-- Only zero has a leading zero. -/
theorem head?_toDigits_ne_zero {n : Nat} (h : 0 < n) : (Nat.toDigits 10 n).head? ≠ some '0' := by
  induction n using Nat.strong_induction_on with
  | _ n ih =>
    by_cases hsmall : n < 10
    · rw [Nat.toDigits_of_lt_base hsmall]
      interval_cases n <;> decide
    · rw [Nat.toDigits_of_base_le (by decide) (Nat.le_of_not_lt hsmall),
        List.head?_append_of_ne_nil _ Nat.toDigits_ne_nil]
      exact ih _ (by omega) (by omega)

theorem canonical_toDigits (n : Nat) :
    ¬ (1 < (Nat.toDigits 10 n).length ∧ (Nat.toDigits 10 n).head? = some '0') := by
  rintro ⟨hlong, hzero⟩
  rcases Nat.eq_zero_or_pos n with rfl | hpos
  · exact absurd hlong (by decide)
  · exact head?_toDigits_ne_zero hpos hzero

end TextCodec
