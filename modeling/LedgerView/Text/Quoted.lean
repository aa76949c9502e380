import LedgerView.Text.Printable
/-!
# Quoted text

Texts and characters as error messages show them: between delimiters, with the delimiter and the
backslash escaped, with short escapes for four controls, and with `\u` and the code point in braces
for every other character that is unprintable or attaches to the one before it.
-/

namespace LedgerView.Text

/-- The code point between braces, in lower-case hexadecimal without padding. -/
def codePointEscape (c : Char) : List Char :=
  '\\' :: 'u' :: '\x7b' :: (Nat.toDigits 16 c.toNat ++ ['\x7d'])

/-- A character between two of `delimiter`. The other kind of quotation mark stands as it is. -/
def escapeChar (delimiter c : Char) : List Char :=
  if c = '\x00' then ['\\', '0']
  else if c = '\t' then ['\\', 't']
  else if c = '\r' then ['\\', 'r']
  else if c = '\n' then ['\\', 'n']
  else if c = '\\' ∨ c = delimiter then ['\\', c]
  else if isAttaching c || !isPrintable c then codePointEscape c
  else [c]

/-- A text between double quotation marks. -/
def quote (s : String) : String :=
  String.ofList ('"' :: (s.toList.flatMap (escapeChar '"') ++ ['"']))

/-- A character between single quotation marks. -/
def quoteChar (c : Char) : String :=
  String.ofList ('\'' :: (escapeChar '\'' c ++ ['\'']))

end LedgerView.Text
