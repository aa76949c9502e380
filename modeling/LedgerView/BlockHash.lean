import LedgerView.Error
import LedgerView.Text.Blank
/-!
# Hashes in text

The hashes of blocks and transactions as callers write them, in either case and with or without
`0x`, and the normal form that the store is searched with: lower-case digits alone.
-/

namespace LedgerView.BlockHash

/-- A text without one leading `0x` or `0X`. -/
def dropMark : List Char → List Char
  | '0' :: 'x' :: digits => digits
  | '0' :: 'X' :: digits => digits
  | cs => cs

/-- The normal form, as characters. -/
def normalChars (text : String) : Except BadArgument (List Char) :=
  let digits := dropMark (Text.trimChars text.toList)
  if digits = [] then .error .emptyHash
  else if digits.length % 2 = 0 ∧ digits.all Text.isHexDigit then .ok (digits.map Char.toLower)
  else .error (.malformedHash text)

def normalize (text : String) : Except BadArgument String :=
  (normalChars text).map String.ofList

/-- The bytes that the normal form spells. -/
def bytes (text : String) : Except BadArgument Bytes := do
  let digits ← normalChars text
  match Text.decodeHex (Text.utf8 digits) with
  | .ok bytes => .ok bytes
  | .error e => .error (.undecodableHash e)

def startsWithMark : List Char → Bool
  | '0' :: 'x' :: _ => true
  | _ => false

/-- A stored hash as blocks show it: in lower case and with the mark. -/
def marked (hash : String) : String :=
  let lower := hash.toList.map Char.toLower
  String.ofList (if startsWithMark hash.toList then lower else '0' :: 'x' :: lower)

/-- A hash without any of its leading marks. -/
def dropMarks : List Char → List Char
  | '0' :: 'x' :: rest => dropMarks rest
  | cs => cs

/-- Equality of hashes up to the case of ASCII letters. -/
def sameIgnoringCase (a b : String) : Bool :=
  a.toList.map Char.toLower == b.toList.map Char.toLower

end LedgerView.BlockHash
