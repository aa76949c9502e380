import Mathlib
import LedgerView.Proofs.BlockHash
import LedgerView.Proofs.Text.Hex
/-!
# Normal forms and bytes

The normal form of a hash is what is written for its bytes (`bytes_eq_ok_iff_normalize`). So texts
have one normal form just if they have the same bytes, and a text that has one has bytes.
-/

namespace LedgerView.BlockHash

variable {text normal : String} {hash : Bytes} {e : BadArgument}

theorem normalize_of_normal (h : normalize text = .ok normal) : normalize normal = .ok normal := by
  obtain ⟨hwrites, hdigits⟩ := normalize_eq_ok_iff.1 h
  refine normalize_eq_ok_iff.2 ⟨⟨[], [], normal.toList, [], ?_, ?_, ?_, ?_, ?_⟩, hdigits⟩
  · simp
  · simp
  · simp
  · simp [marks]
  · exact map_toLower_of_writes hwrites

theorem bytes_eq_ok_iff_normalize :
    bytes text = .ok hash ↔
      hash ≠ [] ∧ normalize text = .ok (String.ofList (Text.encodeHex hash)) := by
  rw [bytes_eq_ok_iff, normalize_eq_ok_iff, String.toList_ofList]
  constructor
  · rintro ⟨hwrites, hne⟩
    exact ⟨hne, hwrites, isDigits_encodeHex hne⟩
  · rintro ⟨hne, hwrites, -⟩
    exact ⟨hwrites, hne⟩

theorem exists_bytes_of_normalize (h : normalize text = .ok normal) :
    ∃ hash, bytes text = .ok hash ∧ String.ofList (Text.encodeHex hash) = normal := by
  obtain ⟨hwrites, hdigits⟩ := normalize_eq_ok_iff.1 h
  obtain ⟨hash, hne, hhash⟩ := exists_encodeHex_of_writes hwrites hdigits
  have hnormal : String.ofList (Text.encodeHex hash) = normal := by
    rw [hhash, String.ofList_toList]
  exact ⟨hash, bytes_eq_ok_iff_normalize.2 ⟨hne, hnormal ▸ h⟩, hnormal⟩

theorem bytes_eq_error_iff : bytes text = .error e ↔ normalize text = .error e := by
  cases hnormal : normalize text with
  | ok normal =>
    obtain ⟨hash, hhash, -⟩ := exists_bytes_of_normalize hnormal
    simp [hhash]
  | error e' =>
    have hchars : normalChars text = .error e' := by
      unfold normalize at hnormal
      cases hdigits : normalChars text with
      | ok digits =>
        rw [hdigits] at hnormal
        cases hnormal
      | error other =>
        rw [hdigits] at hnormal
        cases hnormal
        rfl
    have hbytes : bytes text = .error e' := by
      rw [bytes, hchars]
      rfl
    rw [hbytes]
    simp

/-- A text has a normal form just if it writes the digits of some hash, in either case, behind one
mark or none and with blanks around it, and the normal form is these digits in lower case. It is
its own normal form. A text has bytes just if it has a normal form, which is what is written for
them, and fails to have them for no other reason; so texts have the same bytes just if they have
the same normal form. The bytes of a hash are found from the text that they are shown as. -/
theorem normal_forms :
    (∀ text normal, normalize text = .ok normal ↔
      Writes text normal.toList ∧ IsDigits normal.toList) ∧
    (∀ text, (normalize text >>= normalize) = normalize text) ∧
    (∀ text hash, bytes text = .ok hash ↔
      hash ≠ [] ∧ normalize text = .ok (String.ofList (Text.encodeHex hash))) ∧
    (∀ text, (∃ hash, bytes text = .ok hash) ↔ ∃ normal, normalize text = .ok normal) ∧
    (∀ text e, bytes text = .error e ↔ normalize text = .error e) ∧
    (∀ text e, bytes text ≠ .error (.undecodableHash e)) ∧
    (∀ a b, (∃ hash, bytes a = .ok hash ∧ bytes b = .ok hash) ↔
      ∃ normal, normalize a = .ok normal ∧ normalize b = .ok normal) ∧
    ∀ hash, bytes (Text.prefixedHex hash) = .ok hash ↔ hash ≠ [] := by
  refine ⟨fun text normal => normalize_eq_ok_iff, fun text => ?idempotent,
    fun text hash => bytes_eq_ok_iff_normalize, fun text => ?succeeds,
    fun text e => bytes_eq_error_iff, fun text e herror => ?unreachable, fun a b => ?same,
    fun hash => ?shown⟩
  case idempotent =>
    cases hnormal : normalize text with
    | error e => rfl
    | ok normal => exact normalize_of_normal hnormal
  case succeeds => rw [exists_bytes_iff, exists_normalize_iff]
  case unreachable =>
    rcases normalize_eq_error (bytes_eq_error_iff.1 herror) with hempty | hmalformed
    · cases hempty
    · cases hmalformed
  case same =>
    simp only [bytes_eq_ok_iff_normalize]
    constructor
    · rintro ⟨hash, ⟨-, ha⟩, -, hb⟩
      exact ⟨_, ha, hb⟩
    · rintro ⟨normal, ha, hb⟩
      obtain ⟨hash, hhash, rfl⟩ := exists_bytes_of_normalize ha
      have hne := (bytes_eq_ok_iff_normalize.1 hhash).1
      exact ⟨hash, ⟨hne, ha⟩, hne, hb⟩
  case shown =>
    rw [bytes_eq_ok_iff, and_iff_right_iff_imp]
    intro hne
    refine ⟨[], ['0', 'x'], Text.encodeHex hash, [], ?_, ?_, ?_, ?_, ?_⟩
    · simp [Text.prefixedHex]
    · simp
    · simp
    · simp [marks]
    · exact (Text.decodeHex_utf8_eq_ok_iff.1 (Text.decodeHex_encodeHex hash)).symm

example : bytes " 0XAb12\n" = .ok [0xab, 0x12] := by decide

end LedgerView.BlockHash
