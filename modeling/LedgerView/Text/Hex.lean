/-!
# Hexadecimal text

Two digits to the byte, written in lower case and read in either case. Reading works on the bytes
of a text, so a character outside ASCII is refused at its first byte. `decodeHex_encodeHex` says
that what is written for bytes is read back as them.
-/

namespace LedgerView

abbrev Bytes := List UInt8

namespace Text

/-- The digit of a value below sixteen. -/
def hexDigit (n : Nat) : Char :=
  if n < 10 then Char.ofNat (48 + n) else Char.ofNat (87 + n)

def isHexDigit (c : Char) : Bool :=
  ('0' ≤ c && c ≤ '9') || ('a' ≤ c && c ≤ 'f') || ('A' ≤ c && c ≤ 'F')

/-- The value of a digit, given as its byte. -/
def hexValue? (b : UInt8) : Option Nat :=
  let n := b.toNat
  if 48 ≤ n ∧ n ≤ 57 then some (n - 48)
  else if 97 ≤ n ∧ n ≤ 102 then some (n - 87)
  else if 65 ≤ n ∧ n ≤ 70 then some (n - 55)
  else none

def encodeHex : Bytes → List Char
  | [] => []
  | b :: bs => hexDigit (b.toNat / 16) :: hexDigit (b.toNat % 16) :: encodeHex bs

/-- Bytes the way hashes and aliases are shown. -/
def prefixedHex (bytes : Bytes) : String :=
  String.ofList ('0' :: 'x' :: encodeHex bytes)

/-- Why a text is no hexadecimal form of bytes. -/
inductive HexError where
  | oddLength
  | invalidByte (byte : UInt8) (position : Nat)
  deriving DecidableEq, Repr

/-- Read the digit pairs from `position` on. -/
def decodePairs : Nat → Bytes → Except HexError Bytes
  | _, [] => .ok []
  | _, [_] => .error .oddLength
  | position, high :: low :: rest =>
    match hexValue? high, hexValue? low with
    | none, _ => .error (.invalidByte high position)
    | some _, none => .error (.invalidByte low (position + 1))
    | some h, some l =>
      (decodePairs (position + 2) rest).map (UInt8.ofNat (16 * h + l) :: ·)

/-- The bytes spelled by the digits. An odd number of digits is reported before any of them is
looked at; otherwise the first byte that is no digit is. -/
def decodeHex (digits : Bytes) : Except HexError Bytes :=
  if digits.length % 2 = 1 then .error .oddLength else decodePairs 0 digits

/-- The bytes of a text in its storage form. -/
def utf8 (cs : List Char) : Bytes :=
  cs.flatMap String.utf8EncodeChar

theorem utf8EncodeChar_hexDigit {n : Nat} (h : n < 16) :
    String.utf8EncodeChar (hexDigit n) = [(hexDigit n).val.toUInt8] ∧
      hexValue? (hexDigit n).val.toUInt8 = some n := by
  have : ∀ n : Fin 16, String.utf8EncodeChar (hexDigit n) = [(hexDigit n).val.toUInt8] ∧
      hexValue? (hexDigit n).val.toUInt8 = some n.val := by
    decide
  exact this ⟨n, h⟩

private theorem utf8_encodeHex_cons (b : UInt8) (bytes : Bytes) :
    utf8 (encodeHex (b :: bytes)) =
      (hexDigit (b.toNat / 16)).val.toUInt8 :: (hexDigit (b.toNat % 16)).val.toUInt8 ::
        utf8 (encodeHex bytes) := by
  have hb := b.toNat_lt
  have hhigh := utf8EncodeChar_hexDigit (n := b.toNat / 16) (by omega)
  have hlow := utf8EncodeChar_hexDigit (n := b.toNat % 16) (by omega)
  simp [utf8, encodeHex, hhigh.1, hlow.1]

theorem decodePairs_encodeHex (position : Nat) (bytes : Bytes) :
    decodePairs position (utf8 (encodeHex bytes)) = .ok bytes := by
  induction bytes generalizing position with
  | nil => rfl
  | cons b bytes ih =>
    have hb := b.toNat_lt
    have hhigh := utf8EncodeChar_hexDigit (n := b.toNat / 16) (by omega)
    have hlow := utf8EncodeChar_hexDigit (n := b.toNat % 16) (by omega)
    have hsum : UInt8.ofNat (16 * (b.toNat / 16) + b.toNat % 16) = b := by
      rw [Nat.div_add_mod]
      exact UInt8.ofNat_toNat
    rw [utf8_encodeHex_cons, decodePairs, hhigh.2, hlow.2]
    simp [ih, hsum, Except.map]

theorem length_utf8_encodeHex (bytes : Bytes) :
    (utf8 (encodeHex bytes)).length = 2 * bytes.length := by
  induction bytes with
  | nil => rfl
  | cons b bytes ih =>
    rw [utf8_encodeHex_cons, List.length_cons, List.length_cons, List.length_cons, ih]
    omega

/-- What is written for bytes is read back as them. -/
theorem decodeHex_encodeHex (bytes : Bytes) : decodeHex (utf8 (encodeHex bytes)) = .ok bytes := by
  have hlength := length_utf8_encodeHex bytes
  rw [decodeHex, if_neg (by omega), decodePairs_encodeHex]

end Text

end LedgerView
