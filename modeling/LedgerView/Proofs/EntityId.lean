import Mathlib
import LedgerView.Config
import LedgerView.Error
import LedgerView.Proofs.Outcome
import LedgerView.Proofs.Text
/-!
# Ids, their words and their texts

An id has one packed word, so comparing words is comparing ids. The text of an id is read as that id
(`parse_text`).
-/

namespace LedgerView

/-- The entity of a number in shard 0 and realm 0. -/
def EntityId.numbered (number : UInt32) : EntityId :=
  LedgerConfig.systemEntity number.toFin

theorem encode_inj {a b : EntityId} : a.encode = b.encode ↔ a = b := by
  constructor
  · intro h
    have ha := a.decode_encode
    rw [h, b.decode_encode] at ha
    exact (Except.ok.inj ha).symm
  · rintro rfl
    rfl

/-- Words are in the order of their ids: the parts of an id come from its highest bits down. -/
theorem encode_lt_encode {a b : EntityId} : a.encode < b.encode ↔ a < b := by
  have hlt : a < b ↔ EntityId.compare a b = .lt := Iff.rfl
  rw [Int64.lt_iff_toInt_lt, EntityId.toInt_encode, EntityId.toInt_encode, Int.ofNat_lt, hlt,
    EntityId.compare]
  simp only [Ordering.then_eq_lt, Nat.compare_eq_lt, Nat.compare_eq_eq, EntityId.packed]
  omega

theorem decodeColumn_eq_ok {column : Int64} {id : EntityId} :
    decodeColumn column = .ok id ↔ column = id.encode := by
  rw [decodeColumn, Outcome.ofExcept_eq_ok, EntityId.decode_eq_ok_iff]

/-! ## Texts -/

namespace EntityId

theorem word?_toDigits {n : Nat} (h : n < 0x8000000000000000) :
    word? (Nat.toDigits 10 n) = some (Int64.ofNat n) := by
  rw [word?, Text.number?_toDigits]
  exact if_pos h

theorem part?_ofNat {bound n : Nat} (hword : n < 0x8000000000000000) (h : n < bound) :
    part? bound (Int64.ofNat n) = some ⟨n, h⟩ := by
  have hn : (Int64.ofNat n).toInt = n := Int64.toInt_ofNat_of_lt hword
  have hpart : 0 ≤ (Int64.ofNat n).toInt ∧ (Int64.ofNat n).toInt < bound := by omega
  rw [part?, dif_pos hpart]
  simp only [hn, Int.toNat_natCast]

theorem dot_not_mem_toDigits (n : Nat) : '.' ∉ Nat.toDigits 10 n := by
  intro hmem
  have hdigit := Nat.isDigit_of_mem_toDigits (by decide) (by decide) hmem
  exact absurd hdigit (by decide)

theorem parse_text (id : EntityId) : parse id.text = .ok id := by
  obtain ⟨shard, realm, number⟩ := id
  have hshard := shard.isLt
  have hrealm := realm.isLt
  have hnumber := number.isLt
  simp only [parse, text, textChars, String.toList_ofList,
    Text.fields_append (dot_not_mem_toDigits _), Text.fields_of_not_mem (dot_not_mem_toDigits _)]
  rw [word?_toDigits (by omega), word?_toDigits (by omega), word?_toDigits (by omega)]
  dsimp only
  rw [ofParts, part?_ofNat (by omega) hshard, part?_ofNat (by omega) hrealm,
    part?_ofNat (by omega) hnumber]

end EntityId

end LedgerView
