import Mathlib
import LedgerView.Text.Digits
/-!
# Decimal numerals

A numeral is a run of ASCII digits, and each digit counts by its place. Zeros may stand in front:
numerals of one value differ in these zeros only, and what is written for a number is its numeral
without them (`toDigits_eq_iff`).
-/

namespace LedgerView.Text

/-- A run of ASCII digits, at least one of them. -/
def IsNumeral (run : List Char) : Prop :=
  run ≠ [] ∧ ∀ c ∈ run, '0' ≤ c ∧ c ≤ '9'

/-- The value by places: each digit times ten for every digit behind it. -/
def placeValue : List Char → Nat
  | [] => 0
  | c :: rest => (c.toNat - '0'.toNat) * 10 ^ rest.length + placeValue rest

/-- No zero stands in front of another digit. -/
def IsPlain (run : List Char) : Prop :=
  ∀ rest, run = '0' :: rest → rest = []

variable {run : List Char} {c : Char} {n : Nat}

/-! ## Digits -/

theorem isDigit_iff : c.isDigit ↔ '0' ≤ c ∧ c ≤ '9' := by
  simp only [Char.isDigit, Bool.and_eq_true, decide_eq_true_eq, ge_iff_le, Char.le_def]

theorem toNat_bounds (hc : '0' ≤ c ∧ c ≤ '9') : 48 ≤ c.toNat ∧ c.toNat ≤ 57 := by
  simp only [Char.le_def, UInt32.le_iff_toNat_le] at hc
  exact hc

theorem toDigits_digit (hc : '0' ≤ c ∧ c ≤ '9') :
    Nat.toDigits 10 (c.toNat - '0'.toNat) = [c] := by
  have hwritten : ∀ k < 10, (Nat.digitChar k).toNat = 48 + k := by decide
  have hbounds := toNat_bounds hc
  have hzero : '0'.toNat = 48 := rfl
  have hlt : c.toNat - '0'.toNat < 10 := by omega
  have hchar : Nat.digitChar (c.toNat - '0'.toNat) = c := by
    apply Char.toNat_inj.1
    rw [hwritten _ hlt]
    omega
  rw [Nat.toDigits_of_lt_base hlt, hchar]

/-! ## Values -/

theorem ofDigitChars_eq_placeValue (run : List Char) :
    Nat.ofDigitChars 10 run 0 = placeValue run := by
  induction run with
  | nil => rfl
  | cons c rest ih =>
    rw [Nat.ofDigitChars_cons, Nat.ofDigitChars_eq_ofDigitChars_zero, ih, placeValue,
      Nat.mul_zero, Nat.zero_add, Nat.mul_comm]

/-- Reading accepts the numerals, each with its value. -/
theorem number?_eq_some_iff : number? run = some n ↔ IsNumeral run ∧ placeValue run = n := by
  have hall : run.all Char.isDigit ↔ ∀ c ∈ run, '0' ≤ c ∧ c ≤ '9' := by
    simp only [List.all_eq_true, isDigit_iff]
  unfold number?
  split
  · next hdigits =>
    have hnumeral : IsNumeral run := ⟨hdigits.1, hall.1 hdigits.2⟩
    rw [Option.some.injEq, ofDigitChars_eq_placeValue, and_iff_right hnumeral]
  · next hdigits =>
    refine iff_of_false (by simp) fun h => hdigits ?_
    exact ⟨h.1.1, hall.2 h.1.2⟩

theorem placeValue_concat :
    placeValue (run ++ [c]) = 10 * placeValue run + (c.toNat - '0'.toNat) := by
  rw [← ofDigitChars_eq_placeValue, ← ofDigitChars_eq_placeValue, Nat.ofDigitChars_append,
    Nat.ofDigitChars_cons, Nat.ofDigitChars_nil]

theorem placeValue_pos (hrun : IsNumeral run) (hzero : ∀ rest, run ≠ '0' :: rest) :
    0 < placeValue run := by
  cases run with
  | nil => exact absurd rfl hrun.1
  | cons c rest =>
    have hbounds := toNat_bounds (hrun.2 c List.mem_cons_self)
    have hne : c.toNat ≠ '0'.toNat := by
      intro heq
      exact hzero rest (by rw [Char.toNat_inj.1 heq])
    have hdigit : 0 < c.toNat - '0'.toNat := by
      have hnat : '0'.toNat = 48 := rfl
      omega
    exact Nat.add_pos_left (Nat.mul_pos hdigit (Nat.pow_pos (by decide))) _

/-! ## The numeral without zeros in front -/

/-- The induction takes off the last digit: what is left has no zero in front either. -/
theorem toDigits_placeValue (hrun : IsNumeral run) (hplain : IsPlain run) :
    Nat.toDigits 10 (placeValue run) = run := by
  induction run using List.reverseRecOn with
  | nil => exact absurd rfl hrun.1
  | append_singleton run last ih =>
    have hlast : '0' ≤ last ∧ last ≤ '9' := hrun.2 last (by simp)
    rw [placeValue_concat]
    by_cases hnil : run = []
    · subst hnil
      rw [placeValue, Nat.mul_zero, Nat.zero_add, List.nil_append]
      exact toDigits_digit hlast
    · have hnumeral : IsNumeral run := ⟨hnil, fun c hc => hrun.2 c (List.mem_append_left _ hc)⟩
      have hzero : ∀ rest, run ≠ '0' :: rest := by
        rintro rest rfl
        have hrest := hplain (rest ++ [last]) rfl
        simp at hrest
      have hlt : last.toNat - '0'.toNat < 10 := by
        have hbounds := toNat_bounds hlast
        have hnat : '0'.toNat = 48 := rfl
        omega
      rw [← Nat.toDigits_append_toDigits (by decide) (placeValue_pos hnumeral hzero) hlt,
        ih hnumeral fun rest hrest => absurd hrest (hzero rest), toDigits_digit hlast]

theorem isNumeral_toDigits (n : Nat) : IsNumeral (Nat.toDigits 10 n) := by
  refine ⟨Nat.toDigits_ne_nil, fun c hc => isDigit_iff.1 ?_⟩
  exact Nat.isDigit_of_mem_toDigits (by decide) (by decide) hc

theorem placeValue_toDigits (n : Nat) : placeValue (Nat.toDigits 10 n) = n := by
  rw [← ofDigitChars_eq_placeValue, Nat.ofDigitChars_ten_toDigits]

theorem isPlain_toDigits (n : Nat) : IsPlain (Nat.toDigits 10 n) := by
  induction n using Nat.strong_induction_on with
  | h n ih =>
    intro rest hrest
    rw [Nat.toDigits_eq_if (by decide)] at hrest
    split at hrest
    · exact (List.cons.inj hrest).2.symm
    · next hlarge =>
      have hsmaller := ih (n / 10) (by omega)
      cases hfront : Nat.toDigits 10 (n / 10) with
      | nil => exact absurd hfront Nat.toDigits_ne_nil
      | cons c front =>
        rw [hfront, List.cons_append] at hrest
        -- a zero in front would be all there is of the digits before the last
        obtain ⟨rfl, -⟩ := List.cons.inj hrest
        have hvalue := placeValue_toDigits (n / 10)
        rw [hsmaller front hfront] at hfront
        rw [hfront] at hvalue
        have hzero : placeValue ['0'] = 0 := rfl
        omega

theorem toDigits_eq_iff :
    Nat.toDigits 10 n = run ↔ IsNumeral run ∧ IsPlain run ∧ placeValue run = n := by
  constructor
  · rintro rfl
    exact ⟨isNumeral_toDigits n, isPlain_toDigits n, placeValue_toDigits n⟩
  · rintro ⟨hrun, hplain, rfl⟩
    exact toDigits_placeValue hrun hplain

end LedgerView.Text
