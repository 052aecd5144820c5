import CellKeys.Power

namespace CellKeys.Text

/-- A hexadecimal digit in lower case. -/
def hexDigit (n : Nat) : Char := if n < 10 then Char.ofNat (48 + n) else Char.ofNat (87 + n)

/-- The number that a hexadecimal digit in lower case stands for. -/
def hexValue? (c : Char) : Option Nat :=
  if '0' ≤ c ∧ c ≤ '9' then some (c.toNat - 48)
  else if 'a' ≤ c ∧ c ≤ 'f' then some (c.toNat - 87)
  else none

/-- A number as this many hexadecimal digits, the most significant one first. -/
def hexDigits : Nat → Nat → List Char
  | 0, _ => []
  | count + 1, n => hexDigits count (n / 16) ++ [hexDigit (n % 16)]

/-- All hexadecimal digits of a number, with zeros in front where there are fewer than this many. -/
def paddedHex (count n : Nat) : List Char := (Nat.toDigits 16 n).leftpad count '0'

/-- Reads hexadecimal digits, the most significant one first. -/
def ofHexDigits? (digits : List Char) : Option Nat :=
  digits.foldlM (fun n c => (hexValue? c).map (16 * n + ·)) 0

theorem hexDigits_length (count n : Nat) : (hexDigits count n).length = count := by
  induction count generalizing n with
  | zero => rfl
  | succ count ih => simp [hexDigits, ih]

theorem hexValue?_hexDigit {n : Nat} (h : n < 16) : hexValue? (hexDigit n) = some n := by
  revert n
  decide

/-- The digits written for a number that fits in them read back as the number. -/
theorem ofHexDigits?_hexDigits {count n : Nat} (h : n < 16 ^ count) :
    ofHexDigits? (hexDigits count n) = some n := by
  unfold ofHexDigits?
  induction count generalizing n with
  | zero =>
    have : n = 0 := by simpa using h
    simp [hexDigits, this]
  | succ count ih =>
    have hdiv : n / 16 < 16 ^ count := by
      rw [Nat.div_lt_iff_lt_mul (by decide)]
      simpa [Nat.pow_succ] using h
    simp [hexDigits, List.foldlM_append, ih hdiv, hexValue?_hexDigit (Nat.mod_lt n (by decide))]
    omega

end CellKeys.Text
