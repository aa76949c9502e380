import Mathlib
import LedgerView.Proofs.Text
/-!
# Reading hexadecimal text

A text is read as bytes just if it is what is written for them, up to the case of its letters
(`decodeHex_utf8_eq_ok_iff`). A character outside ASCII is stored as bytes none of which is a digit.
-/

namespace LedgerView.Text

variable {digits : List Char} {bytes : Bytes} {position : Nat}

/-- A character is stored as one byte that has its value as a digit, or it is no digit and neither
is the first byte that it is stored as. -/
theorem utf8EncodeChar_cases (c : Char) :
    ∃ first others, String.utf8EncodeChar c = first :: others ∧
      ((∃ n < 16, c.toLower = hexDigit n ∧ hexValue? first = some n ∧ others = []) ∨
        isHexDigit c = false ∧ hexValue? first = none) := by
  have hascii : ∀ k < 128,
      (∃ n < 16, (Char.ofNat k).toLower = hexDigit n ∧ hexValue? (UInt8.ofNat k) = some n) ∨
        isHexDigit (Char.ofNat k) = false ∧ hexValue? (UInt8.ofNat k) = none := by
    decide +kernel
  have hlarge : ∀ b : UInt8, 128 ≤ b.toNat → hexValue? b = none := by
    intro b hb
    rw [hexValue?, if_neg (by omega), if_neg (by omega), if_neg (by omega)]
  have hother : 128 ≤ c.toNat → isHexDigit c = false := by
    intro hc
    by_contra hdigit
    have hlt := of_isHexDigit (P := fun c => c.toNat < 128) (by decide) (by simpa using hdigit)
    omega
  have hcode : c.val.toNat = c.toNat := rfl
  simp only [String.utf8EncodeChar]
  split
  · next hsmall =>
    refine ⟨_, _, rfl, ?_⟩
    have hcases := hascii c.toNat (by omega)
    rw [Char.ofNat_toNat] at hcases
    rcases hcases with ⟨n, hn, hlower, hvalue⟩ | hnone
    · exact .inl ⟨n, hn, hlower, hvalue, rfl⟩
    · exact .inr hnone
  · next hlong =>
    -- the first byte of a longer form has its highest bit set
    split
    · refine ⟨_, _, rfl, .inr ⟨hother (by omega), hlarge _ ?_⟩⟩
      rw [UInt8.toNat_ofNat']
      omega
    · split
      · refine ⟨_, _, rfl, .inr ⟨hother (by omega), hlarge _ ?_⟩⟩
        rw [UInt8.toNat_ofNat']
        omega
      · refine ⟨_, _, rfl, .inr ⟨hother (by omega), hlarge _ ?_⟩⟩
        rw [UInt8.toNat_ofNat']
        omega

theorem hexDigit_inj {m n : Nat} (hm : m < 16) (hn : n < 16) :
    hexDigit m = hexDigit n ↔ m = n := by
  have hall : ∀ m < 16, ∀ n < 16, hexDigit m = hexDigit n ↔ m = n := by decide
  exact hall m hm n hn

theorem toLower_not_mem_encodeHex {c : Char} (hc : isHexDigit c = false) :
    c.toLower ∉ encodeHex bytes := by
  intro hmem
  have hdigit := isHexDigit_of_mem_encodeHex hmem
  rw [isHexDigit_toLower, hc] at hdigit
  cases hdigit

theorem encodeHex_eq_cons_cons_iff {high low : Nat} (hhigh : high < 16) (hlow : low < 16) :
    encodeHex bytes = hexDigit high :: hexDigit low :: digits ↔
      ∃ others, bytes = UInt8.ofNat (16 * high + low) :: others ∧ encodeHex others = digits := by
  have hbyte : (UInt8.ofNat (16 * high + low)).toNat = 16 * high + low := by
    rw [UInt8.toNat_ofNat']
    omega
  constructor
  · intro h
    cases bytes with
    | nil => cases h
    | cons b others =>
      have hb := b.toNat_lt
      rw [encodeHex, List.cons.injEq, List.cons.injEq, hexDigit_inj (by omega) hhigh,
        hexDigit_inj (by omega) hlow] at h
      obtain ⟨hdiv, hmod, hothers⟩ := h
      have hsame : b = UInt8.ofNat (16 * high + low) := by
        apply UInt8.toNat_inj.1
        rw [hbyte]
        omega
      exact ⟨others, by rw [hsame], hothers⟩
  · rintro ⟨others, rfl, rfl⟩
    have hdiv : (16 * high + low) / 16 = high := by omega
    have hmod : (16 * high + low) % 16 = low := by omega
    rw [encodeHex, hbyte, hdiv, hmod]

/-! ## Pairs of digits -/

theorem decodePairs_ne_ok {first : UInt8} {others : Bytes} (h : hexValue? first = none) :
    decodePairs position (first :: others) ≠ .ok bytes := by
  cases others with
  | nil => simp [decodePairs]
  | cons second others => simp [decodePairs, h]

theorem even_of_decodePairs {position : Nat} {stored bytes : Bytes}
    (h : decodePairs position stored = .ok bytes) :
    stored.length % 2 = 0 := by
  match stored with
  | [] => rfl
  | [_] => cases h
  | high :: low :: rest =>
    rw [decodePairs] at h
    split at h
    · cases h
    · cases h
    · cases hrest : decodePairs (position + 2) rest with
      | error e =>
        rw [hrest] at h
        cases h
      | ok others =>
        have heven := even_of_decodePairs hrest
        rw [List.length_cons, List.length_cons]
        omega

/-- The recursion takes two characters at a time: a pair of digits, or one that is none. -/
theorem decodePairs_utf8_eq_ok_iff (position : Nat) {digits : List Char} {bytes : Bytes} :
    decodePairs position (utf8 digits) = .ok bytes ↔
      encodeHex bytes = digits.map Char.toLower := by
  match digits with
  | [] =>
    rw [List.map_nil]
    cases bytes <;> simp [utf8, decodePairs, encodeHex]
  | [c] =>
    refine iff_of_false (fun h => ?_) fun h => ?_
    · obtain ⟨first, others, hstored, ⟨n, -, -, -, rfl⟩ | ⟨-, hfirst⟩⟩ := utf8EncodeChar_cases c
      · simp [utf8, hstored, decodePairs] at h
      · rw [utf8, List.flatMap_cons, hstored, List.cons_append] at h
        exact decodePairs_ne_ok hfirst h
    · have hlength := congrArg List.length h
      rw [length_encodeHex, List.map_singleton, List.length_singleton] at hlength
      omega
  | high :: low :: rest =>
    rw [utf8, List.flatMap_cons, List.flatMap_cons, ← utf8, List.map_cons, List.map_cons]
    obtain ⟨first, others, hstored, ⟨h, hh, hhigh, hvalue, rfl⟩ | ⟨hhigh, hfirst⟩⟩ :=
      utf8EncodeChar_cases high
    · obtain ⟨second, others, hstored', ⟨l, hl, hlow, hvalue', rfl⟩ | ⟨hlow, hsecond⟩⟩ :=
        utf8EncodeChar_cases low
      · rw [hstored, hstored', List.singleton_append, List.singleton_append, decodePairs, hvalue,
          hvalue', hhigh, hlow, encodeHex_eq_cons_cons_iff hh hl]
        simp only [← decodePairs_utf8_eq_ok_iff (position + 2)]
        cases decodePairs (position + 2) (utf8 rest) with
        | error e => simp [Except.map]
        | ok others => simp [Except.map, eq_comm]
      · refine iff_of_false ?_ fun heq => ?_
        · rw [hstored, hstored', List.singleton_append, List.cons_append, decodePairs, hvalue,
            hsecond]
          simp
        · exact toLower_not_mem_encodeHex hlow (by rw [heq]; simp)
    · refine iff_of_false ?_ fun heq => toLower_not_mem_encodeHex hhigh (by rw [heq]; simp)
      rw [hstored, List.cons_append]
      exact decodePairs_ne_ok hfirst

theorem decodeHex_utf8_eq_ok_iff :
    decodeHex (utf8 digits) = .ok bytes ↔ encodeHex bytes = digits.map Char.toLower := by
  rw [← decodePairs_utf8_eq_ok_iff 0, decodeHex]
  split
  · next hodd =>
    refine iff_of_false (by simp) fun h => ?_
    have heven := even_of_decodePairs h
    omega
  · rfl

end LedgerView.Text
