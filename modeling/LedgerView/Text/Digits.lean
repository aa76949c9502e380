/-!
# Decimal digits

Unsigned decimal numbers as they stand in texts: one or more ASCII digits, leading zeros allowed.
`number?_toDigits` says that what is written for a number is read back as it.
-/

namespace LedgerView.Text

/-- The value of a non-empty run of ASCII digits. -/
def number? (cs : List Char) : Option Nat :=
  if cs ≠ [] ∧ cs.all Char.isDigit then some (Nat.ofDigitChars 10 cs 0) else none

/-- As `number?`, with an optional plus sign in front. -/
def plusNumber? : List Char → Option Nat
  | '+' :: cs => number? cs
  | cs => number? cs

theorem number?_toDigits (n : Nat) : number? (Nat.toDigits 10 n) = some n := by
  have hdigits : (Nat.toDigits 10 n).all Char.isDigit = true := by
    rw [List.all_eq_true]
    intro c hc
    exact Nat.isDigit_of_mem_toDigits (by decide) (by decide) hc
  simp [number?, hdigits, Nat.toDigits_ne_nil, Nat.ofDigitChars_ten_toDigits]

end LedgerView.Text
