import LedgerView.Text.Digits
import LedgerView.Text.Fields
import LedgerView.Text.Quoted
/-!
# Entity ids

Accounts, tokens and files are addressed by `shard.realm.number`. Columns hold an id packed into
one signed word: fifteen bits of shard, sixteen of realm and thirty-two of number below a clear
sign bit, so exactly the negative words are no ids.
-/

namespace LedgerView

structure EntityId where
  shard : Fin 0x8000
  realm : Fin 0x10000
  number : Fin 0x100000000
  deriving DecidableEq, Repr

/-- Why there is no id for a word, a triple of words or a text. -/
inductive EntityIdError where
  | shardOutOfRange (shard : Int64)
  | realmOutOfRange (realm : Int64)
  | numberOutOfRange (number : Int64)
  | negativeEncoding (encoded : Int64)
  | malformed (text : String)
  deriving DecidableEq, Repr

def EntityIdError.message : EntityIdError → String
  | .shardOutOfRange n => s!"shard {n.toInt} out of range [0, 32767]"
  | .realmOutOfRange n => s!"realm {n.toInt} out of range [0, 65535]"
  | .numberOutOfRange n => s!"number {n.toInt} out of range [0, 4294967295]"
  | .negativeEncoding n => s!"negative encoded entity id: {n.toInt}"
  | .malformed text => "malformed entity id: " ++ Text.quote text

namespace EntityId

/-- A word as one part of an id. -/
def part? (bound : Nat) (n : Int64) : Option (Fin bound) :=
  if h : 0 ≤ n.toInt ∧ n.toInt < bound then some ⟨n.toInt.toNat, by omega⟩ else none

/-- The id with these parts. The first part out of range is reported. -/
def ofParts (shard realm number : Int64) : Except EntityIdError EntityId :=
  match part? 0x8000 shard with
  | none => .error (.shardOutOfRange shard)
  | some s =>
    match part? 0x10000 realm with
    | none => .error (.realmOutOfRange realm)
    | some r =>
      match part? 0x100000000 number with
      | none => .error (.numberOutOfRange number)
      | some n => .ok ⟨s, r, n⟩

/-- The id of that number in shard 0 and realm 0. -/
def ofNumber (number : Int64) : Except EntityIdError EntityId :=
  ofParts 0 0 number

/-- The packed form as a natural number. -/
def packed (id : EntityId) : Nat :=
  id.shard.val * 0x1000000000000 + id.realm.val * 0x100000000 + id.number.val

def encode (id : EntityId) : Int64 :=
  Int64.ofNat id.packed

/-- Unpack a natural number below the sign bit. -/
def unpack (n : Nat) (h : n < 0x8000000000000000) : EntityId where
  shard := ⟨n / 0x1000000000000, by omega⟩
  realm := ⟨n / 0x100000000 % 0x10000, by omega⟩
  number := ⟨n % 0x100000000, by omega⟩

theorem toNat_toInt_lt (n : Int64) : n.toInt.toNat < 0x8000000000000000 := by
  have := Int64.toInt_lt n
  omega

def decode (encoded : Int64) : Except EntityIdError EntityId :=
  if encoded.toInt < 0 then .error (.negativeEncoding encoded)
  else .ok (unpack encoded.toInt.toNat (toNat_toInt_lt encoded))

theorem packed_lt (id : EntityId) : id.packed < 0x8000000000000000 := by
  have := id.shard.isLt
  have := id.realm.isLt
  have := id.number.isLt
  unfold packed
  omega

theorem toInt_encode (id : EntityId) : id.encode.toInt = id.packed :=
  Int64.toInt_ofNat_of_lt (by have := id.packed_lt; omega)

theorem unpack_packed (id : EntityId) : unpack id.packed id.packed_lt = id := by
  obtain ⟨shard, realm, number⟩ := id
  have := shard.isLt
  have := realm.isLt
  have := number.isLt
  simp only [unpack, packed, mk.injEq, Fin.ext_iff]
  omega

theorem packed_unpack (n : Nat) (h : n < 0x8000000000000000) : (unpack n h).packed = n := by
  simp only [unpack, packed]
  omega

theorem decode_encode (id : EntityId) : decode id.encode = .ok id := by
  have hint := id.toInt_encode
  have hnat : id.encode.toInt.toNat = id.packed := by omega
  rw [decode, if_neg (by omega)]
  simp only [hnat, unpack_packed]

/-- Unpacking undoes packing, and nothing else unpacks. -/
theorem decode_eq_ok_iff {n : Int64} {id : EntityId} : decode n = .ok id ↔ n = id.encode := by
  constructor
  · intro h
    unfold decode at h
    split at h
    · cases h
    · next hneg =>
      cases h
      rw [← Int64.toInt_inj, toInt_encode, packed_unpack]
      omega
  · rintro rfl
    exact decode_encode id

/-- The word spelled by one field of an id's text. -/
def word? (digits : List Char) : Option Int64 :=
  match Text.number? digits with
  | some n => if n < 0x8000000000000000 then some (Int64.ofNat n) else none
  | none => none

/-- Read `shard.realm.number`: three runs of digits, leading zeros allowed. -/
def parse (text : String) : Except EntityIdError EntityId :=
  match Text.fields '.' text.toList with
  | [shard, realm, number] =>
    match word? shard, word? realm, word? number with
    | some s, some r, some n => ofParts s r n
    | _, _, _ => .error (.malformed text)
  | _ => .error (.malformed text)

def textChars (id : EntityId) : List Char :=
  Nat.toDigits 10 id.shard.val ++ '.' ::
    (Nat.toDigits 10 id.realm.val ++ '.' :: Nat.toDigits 10 id.number.val)

def text (id : EntityId) : String :=
  String.ofList id.textChars

/-- By shard, then realm, then number. -/
def compare (a b : EntityId) : Ordering :=
  (Ord.compare a.shard.val b.shard.val).then
    ((Ord.compare a.realm.val b.realm.val).then (Ord.compare a.number.val b.number.val))

instance : Ord EntityId := ⟨compare⟩

instance : LT EntityId := ltOfOrd

end EntityId

end LedgerView
