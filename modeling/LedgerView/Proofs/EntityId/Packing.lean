import Mathlib
import LedgerView.Proofs.EntityId
/-!
# Ids and the words they are packed into

The three parts of an id lie side by side in its word, the shard highest, so packing is an
isomorphism of orders between ids and the words without a sign (`packing_orderIso`).
-/

namespace LedgerView.EntityId

variable {shard realm number n : Int64} {id a b : EntityId}

/-! ## Parts -/

theorem part?_eq_some_iff {bound : Nat} {part : Fin bound} :
    part? bound n = some part ↔ (part.val : Int) = n.toInt := by
  unfold part?
  split
  · next h =>
    rw [Option.some.injEq, Fin.ext_iff]
    dsimp only
    omega
  · next h =>
    have hpart := part.isLt
    refine iff_of_false (by simp) fun heq => h ?_
    omega

theorem ofParts_eq_ok_iff :
    ofParts shard realm number = .ok id ↔
      (id.shard.val : Int) = shard.toInt ∧ (id.realm.val : Int) = realm.toInt ∧
        (id.number.val : Int) = number.toInt := by
  rw [← part?_eq_some_iff, ← part?_eq_some_iff, ← part?_eq_some_iff]
  obtain ⟨s, r, n⟩ := id
  unfold ofParts
  cases part? 0x8000 shard with
  | none => simp
  | some s' =>
    cases part? 0x10000 realm with
    | none => simp
    | some r' =>
      cases part? 0x100000000 number with
      | none => simp
      | some n' => simp

theorem exists_ofParts_iff :
    (∃ id, ofParts shard realm number = .ok id) ↔
      (0 ≤ shard.toInt ∧ shard.toInt ≤ 32767) ∧ (0 ≤ realm.toInt ∧ realm.toInt ≤ 65535) ∧
        0 ≤ number.toInt ∧ number.toInt ≤ 4294967295 := by
  simp only [ofParts_eq_ok_iff]
  constructor
  · rintro ⟨id, hshard, hrealm, hnumber⟩
    have := id.shard.isLt
    have := id.realm.isLt
    have := id.number.isLt
    omega
  · rintro ⟨hshard, hrealm, hnumber⟩
    refine ⟨⟨⟨shard.toInt.toNat, ?_⟩, ⟨realm.toInt.toNat, ?_⟩, ⟨number.toInt.toNat, ?_⟩⟩, ?_⟩
    · omega
    · omega
    · omega
    · dsimp only
      omega

/-! ## Words -/

theorem exists_encode_iff : (∃ id : EntityId, id.encode = n) ↔ 0 ≤ n.toInt := by
  constructor
  · rintro ⟨id, rfl⟩
    rw [toInt_encode]
    exact Int.natCast_nonneg _
  · intro h
    have hlt := toNat_toInt_lt n
    refine ⟨unpack n.toInt.toNat hlt, ?_⟩
    rw [← Int64.toInt_inj, toInt_encode, packed_unpack]
    omega

theorem decode_eq_error_iff {e : EntityIdError} :
    decode n = .error e ↔ n.toInt < 0 ∧ e = .negativeEncoding n := by
  unfold decode
  split
  · next h => rw [Except.error.injEq, and_iff_right h, eq_comm]
  · next h => simp [h]

theorem decodeColumn_eq_error_iff {f : Failure LedgerError} :
    decodeColumn n = .error f ↔ n.toInt < 0 ∧ f = .cause (corruptRow (.negativeEncoding n)) := by
  unfold decodeColumn decode
  split
  · next h => rw [Outcome.ofExcept_error, Except.error.injEq, and_iff_right h, eq_comm]
  · next h => simp [h]

/-! ## Bits -/

theorem smod_of_lt {k : Nat} (hk : k < 64) :
    (Int64.ofNat k).toBitVec.smod 64 = BitVec.ofNat 64 k := by
  have hcount : (Int64.ofNat k).toBitVec = BitVec.ofNat 64 k := rfl
  rw [hcount]
  interval_cases k <;> decide

theorem toNat_ofNat_of_lt {m : Nat} (hm : m < 0x8000000000000000) :
    (Int64.ofNat m).toBitVec.toNat = m :=
  Nat.mod_eq_of_lt (Nat.lt_trans hm (by decide))

theorem ofNat_shiftLeft {m k : Nat} (hk : k < 64) :
    Int64.ofNat (m <<< k) = Int64.ofNat m <<< Int64.ofNat k := by
  rw [← Int64.toBitVec_inj, Int64.toBitVec_shiftLeft, smod_of_lt hk, BitVec.shiftLeft_ofNat_eq,
    Nat.mod_eq_of_lt (Nat.lt_trans hk (by decide))]
  apply BitVec.eq_of_toNat_eq
  rw [BitVec.toNat_shiftLeft]
  change m <<< k % 2 ^ 64 = (m % 2 ^ 64) <<< k % 2 ^ 64
  rw [Nat.shiftLeft_eq, Nat.shiftLeft_eq, Nat.mod_mul_mod]

theorem ofNat_shiftRight {m k : Nat} (hm : m < 0x8000000000000000) (hk : k < 64) :
    Int64.ofNat (m >>> k) = Int64.ofNat m >>> Int64.ofNat k := by
  have hsign : (Int64.ofNat m).toBitVec.msb = false := by
    rw [BitVec.msb_eq_false_iff_two_mul_lt, toNat_ofNat_of_lt hm]
    omega
  have hcount : (BitVec.ofNat 64 k).toNat = k := Nat.mod_eq_of_lt (Nat.lt_trans hk (by decide))
  rw [← Int64.toBitVec_inj, Int64.toBitVec_shiftRight, smod_of_lt hk, BitVec.sshiftRight',
    BitVec.sshiftRight_eq_of_msb_false hsign, hcount]
  apply BitVec.eq_of_toNat_eq
  rw [BitVec.toNat_ushiftRight, toNat_ofNat_of_lt hm, toNat_ofNat_of_lt]
  exact Nat.lt_of_le_of_lt (Nat.shiftRight_le m k) hm

theorem ofNat_or (m n : Nat) : Int64.ofNat (m ||| n) = Int64.ofNat m ||| Int64.ofNat n := by
  rw [← Int64.toBitVec_inj, Int64.toBitVec_or]
  exact BitVec.ofNat_or

theorem ofNat_and (m n : Nat) : Int64.ofNat (m &&& n) = Int64.ofNat m &&& Int64.ofNat n := by
  rw [← Int64.toBitVec_inj, Int64.toBitVec_and]
  exact BitVec.ofNat_and

/-- No two parts share a bit, so adding them up is putting them side by side. -/
theorem packed_eq_or (id : EntityId) :
    id.packed = id.shard.val <<< 48 ||| id.realm.val <<< 32 ||| id.number.val := by
  have hupper : id.shard.val <<< 16 + id.realm.val = id.shard.val <<< 16 ||| id.realm.val :=
    Nat.shiftLeft_add_eq_or_of_lt id.realm.isLt id.shard.val
  calc id.packed = (id.shard.val <<< 16 + id.realm.val) <<< 32 + id.number.val := by
        rw [packed, Nat.shiftLeft_eq, Nat.shiftLeft_eq]
        omega
    _ = (id.shard.val <<< 16 + id.realm.val) <<< 32 ||| id.number.val :=
        Nat.shiftLeft_add_eq_or_of_lt id.number.isLt _
    _ = id.shard.val <<< 48 ||| id.realm.val <<< 32 ||| id.number.val := by
        rw [hupper, Nat.shiftLeft_or_distrib, ← Nat.shiftLeft_add]

theorem encode_eq_or (id : EntityId) :
    id.encode = Int64.ofNat id.shard <<< 48 ||| Int64.ofNat id.realm <<< 32 |||
      Int64.ofNat id.number := by
  rw [encode, packed_eq_or, ofNat_or, ofNat_or, ofNat_shiftLeft (by decide),
    ofNat_shiftLeft (by decide)]
  rfl

theorem parts_eq_bits (id : EntityId) :
    Int64.ofNat id.shard = id.encode >>> 48 ∧
      Int64.ofNat id.realm = id.encode >>> 32 &&& 0xFFFF ∧
      Int64.ofNat id.number = id.encode &&& 0xFFFFFFFF := by
  have hparts := id.unpack_packed
  have hlt := id.packed_lt
  have hshard : id.packed >>> 48 = id.shard := by
    rw [Nat.shiftRight_eq_div_pow]
    exact congrArg (fun id => id.shard.val) hparts
  have hrealm : id.packed >>> 32 &&& 2 ^ 16 - 1 = id.realm := by
    rw [Nat.and_two_pow_sub_one_eq_mod, Nat.shiftRight_eq_div_pow]
    exact congrArg (fun id => id.realm.val) hparts
  have hnumber : id.packed &&& 2 ^ 32 - 1 = id.number := by
    rw [Nat.and_two_pow_sub_one_eq_mod]
    exact congrArg (fun id => id.number.val) hparts
  refine ⟨?_, ?_, ?_⟩
  · rw [← hshard, ofNat_shiftRight hlt (by decide)]
    rfl
  · rw [← hrealm, ofNat_and, ofNat_shiftRight hlt (by decide)]
    rfl
  · rw [← hnumber, ofNat_and]
    rfl

/-! ## The isomorphism -/

theorem lt_iff :
    a < b ↔ a.shard < b.shard ∨ a.shard = b.shard ∧
      (a.realm < b.realm ∨ a.realm = b.realm ∧ a.number < b.number) := by
  have hlt : a < b ↔ compare a b = .lt := Iff.rfl
  rw [hlt, compare]
  simp only [Ordering.then_eq_lt, Nat.compare_eq_lt, Nat.compare_eq_eq, Fin.lt_def, Fin.ext_iff]

/-- Packing is an isomorphism of orders. Ids are made of three words in their ranges, each part
takes its own bits of the packed word, the packed words are exactly those without a sign, unpacking
is the inverse, and words ascend just as their ids do: by shard, then realm, then number. -/
theorem packing_orderIso :
    (∀ shard realm number : Int64, (∃ id, ofParts shard realm number = .ok id) ↔
      (0 ≤ shard.toInt ∧ shard.toInt ≤ 32767) ∧ (0 ≤ realm.toInt ∧ realm.toInt ≤ 65535) ∧
        0 ≤ number.toInt ∧ number.toInt ≤ 4294967295) ∧
    (∀ shard realm number id, ofParts shard realm number = .ok id ↔
      Int64.ofNat id.shard = shard ∧ Int64.ofNat id.realm = realm ∧
        Int64.ofNat id.number = number) ∧
    (∀ id : EntityId,
      id.encode = Int64.ofNat id.shard <<< 48 ||| Int64.ofNat id.realm <<< 32 |||
        Int64.ofNat id.number ∧
      Int64.ofNat id.shard = id.encode >>> 48 ∧
      Int64.ofNat id.realm = id.encode >>> 32 &&& 0xFFFF ∧
      Int64.ofNat id.number = id.encode &&& 0xFFFFFFFF) ∧
    (∀ n : Int64, (∃ id : EntityId, id.encode = n) ↔ 0 ≤ n.toInt ∧ n.toInt ≤ 2 ^ 63 - 1) ∧
    (∀ n id, decode n = .ok id ↔ encode id = n) ∧
    (∀ n e, decode n = .error e ↔ n.toInt < 0 ∧ e = .negativeEncoding n) ∧
    (∀ a b : EntityId,
      (a < b ↔ a.shard < b.shard ∨ a.shard = b.shard ∧
        (a.realm < b.realm ∨ a.realm = b.realm ∧ a.number < b.number)) ∧
      (a < b ↔ a.encode < b.encode)) ∧
    ∀ ids : List EntityId,
      ((ids.map encode).Pairwise (· ≤ ·) ↔ ids.Pairwise fun a b => ¬b < a) ∧
      ((ids.map encode).Pairwise (· < ·) ↔ ids.Pairwise (· < ·)) := by
  refine ⟨fun _ _ _ => exists_ofParts_iff, fun shard realm number id => ?parts,
    fun id => ⟨encode_eq_or id, parts_eq_bits id⟩, fun n => ?onto, fun n id => ?inverse,
    fun n e => decode_eq_error_iff, fun a b => ⟨lt_iff, encode_lt_encode.symm⟩, fun ids => ?sorted⟩
  case parts =>
    have hword : ∀ {bound : Nat} (part : Fin bound) (n : Int64), bound ≤ 0x8000000000000000 →
        ((part.val : Int) = n.toInt ↔ Int64.ofNat part = n) := by
      intro bound part n hbound
      have hpart : (Int64.ofNat part).toInt = part :=
        Int64.toInt_ofNat_of_lt (Nat.lt_of_lt_of_le part.isLt hbound)
      rw [← Int64.toInt_inj, hpart]
    rw [ofParts_eq_ok_iff, hword _ _ (by decide), hword _ _ (by decide), hword _ _ (by decide)]
  case onto =>
    have hmax := Int64.toInt_lt n
    rw [exists_encode_iff]
    omega
  case inverse => rw [decode_eq_ok_iff, eq_comm]
  case sorted =>
    constructor
    · rw [List.pairwise_map]
      simp only [← encode_lt_encode, Int64.not_lt]
    · rw [List.pairwise_map]
      simp only [encode_lt_encode]

/-- The greatest id of all has the greatest word. -/
example : encode ⟨0x7FFF, 0xFFFF, 0xFFFFFFFF⟩ = Int64.maxValue := by decide

end LedgerView.EntityId
