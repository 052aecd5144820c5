import CellKeys.Text.Hex

namespace CellKeys.Text

/-- The hexadecimal digits in lower case. -/
def hexAlphabet : List Char := "0123456789abcdef".toList

theorem hexDigit_mem {n : Nat} (h : n < 16) : hexDigit n ∈ hexAlphabet := by
  revert n
  decide

theorem digitChar_eq_hexDigit {n : Nat} (h : n < 16) : n.digitChar = hexDigit n := by
  revert n
  decide

theorem mem_hexDigits {count n : Nat} {c : Char} (h : c ∈ hexDigits count n) : c ∈ hexAlphabet := by
  induction count generalizing n with
  | zero => cases h
  | succ count ih =>
    rw [hexDigits, List.mem_append, List.mem_singleton] at h
    rcases h with h | rfl
    · exact ih h
    · exact hexDigit_mem (Nat.mod_lt n (by decide))

theorem hexDigits_zero (count : Nat) : hexDigits count 0 = List.replicate count '0' := by
  induction count with
  | zero => rfl
  | succ count ih =>
    rw [hexDigits, Nat.zero_div, ih, List.replicate_succ']
    rfl

/-- Zeros in front of digits do not depend on the last digit. -/
theorem leftpad_concat (count : Nat) (digits : List Char) (c d : Char) :
    (digits ++ [c]).leftpad (count + 1) d = digits.leftpad count d ++ [c] := by
  rw [List.leftpad, List.leftpad, List.length_append, List.length_singleton,
    Nat.add_sub_add_right, List.append_assoc]

/-- A number that fits in this many digits is written with just as many. -/
theorem paddedHex_eq (count : Nat) {n : Nat} (h : n < 16 ^ (count + 1)) :
    paddedHex (count + 1) n = hexDigits (count + 1) n := by
  induction count generalizing n with
  | zero =>
    have hsmall : n < 16 := by simpa using h
    rw [paddedHex, Nat.toDigits_of_lt_base hsmall, digitChar_eq_hexDigit hsmall, hexDigits,
      Nat.mod_eq_of_lt hsmall]
    rfl
  | succ count ih =>
    by_cases hsmall : n < 16
    · rw [paddedHex, Nat.toDigits_of_lt_base hsmall, digitChar_eq_hexDigit hsmall, hexDigits,
        Nat.mod_eq_of_lt hsmall, Nat.div_eq_of_lt hsmall, hexDigits_zero]
      rfl
    · have hrest : n / 16 < 16 ^ (count + 1) := by
        rw [Nat.div_lt_iff_lt_mul (by decide)]
        simpa [Nat.pow_succ] using h
      rw [paddedHex, Nat.toDigits_of_base_le (by decide) (by omega), leftpad_concat,
        digitChar_eq_hexDigit (Nat.mod_lt n (by decide)), hexDigits, ← ih hrest]
      rfl

end CellKeys.Text
