import LedgerView.Json.Numeral
import LedgerView.Text.Hex
/-!
# Tokens of JSON texts

A text is taken apart one character at a time. Between the tokens there may be blanks, tabs and
line ends. A text in quotation marks holds its characters as they are or as escapes; two escapes
that are halves of a surrogate pair are one character, and half a pair alone is none. All else
that stands between marks and blanks is a word: a number or one of three names.
-/

namespace LedgerView.Json

inductive Token where
  | openList
  | closeList
  | openObject
  | closeObject
  | comma
  | colon
  | text (value : String)
  /-- A number, a truth value or null. -/
  | atom (value : Json)
  deriving Repr

namespace Token

def isSpace (c : Char) : Bool :=
  c = ' ' || c = '\t' || c = '\n' || c = '\r'

/-- The token that a character is for itself. -/
def mark? : Char → Option Token
  | '[' => some openList
  | ']' => some closeList
  | '\x7b' => some openObject
  | '\x7d' => some closeObject
  | ',' => some comma
  | ':' => some colon
  | _ => none

/-- The token of a word. -/
def word? (cs : List Char) : Option Token :=
  if cs = ['n', 'u', 'l', 'l'] then some (atom .null)
  else if cs = ['t', 'r', 'u', 'e'] then some (atom (.bool true))
  else if cs = ['f', 'a', 'l', 's', 'e'] then some (atom (.bool false))
  else (Numeral.read? cs).map atom

/-- The character that a backslash and one more character stand for. -/
def shortEscape? : Char → Option Char
  | '"' => some '"'
  | '\\' => some '\\'
  | '/' => some '/'
  | 'b' => some '\x08'
  | 'f' => some '\x0c'
  | 'n' => some '\n'
  | 'r' => some '\r'
  | 't' => some '\t'
  | _ => none

def isHighSurrogate (n : Nat) : Bool :=
  0xD800 ≤ n && n < 0xDC00

def isLowSurrogate (n : Nat) : Bool :=
  0xDC00 ≤ n && n < 0xE000

/-- Put an escaped number before the code points of a text, whose last stands first. The second
half of a pair joins the first half. -/
def pushEscaped (n : Nat) : List Nat → List Nat
  | high :: points =>
    if isHighSurrogate high && isLowSurrogate n then
      (0x10000 + (high - 0xD800) * 0x400 + (n - 0xDC00)) :: points
    else n :: high :: points
  | [] => [n]

def char? (n : Nat) : Option Char :=
  if n.isValidChar then some (Char.ofNat n) else none

/-- The token of a text, given by its code points, of which the last stands first. -/
def text? (points : List Nat) : Option Token :=
  (points.reverse.mapM char?).map fun cs => text (String.ofList cs)

/-- Where in a token the next character stands. What has been read of the token is kept with its
last character first. -/
inductive Place where
  | between
  | word (chars : List Char)
  | text (points : List Nat)
  /-- Behind a backslash. -/
  | escape (points : List Nat)
  /-- Among four hexadecimal digits, of which `due` are to come. -/
  | code (points : List Nat) (due value : Nat)

/-- The tokens read so far, the last one first, and the place within the next one. -/
structure Scan where
  place : Place := .between
  tokens : List Token := []

namespace Scan

def emit (s : Scan) (t : Token) : Scan :=
  { place := .between, tokens := t :: s.tokens }

/-- The first character of a token, or one between two. -/
def start (s : Scan) (c : Char) : Scan :=
  if isSpace c then { s with place := .between }
  else if c = '"' then { s with place := .text [] }
  else
    match mark? c with
    | some t => s.emit t
    | none => { s with place := .word [c] }

def step (s : Scan) (c : Char) : Option Scan :=
  match s.place with
  | .between => some (s.start c)
  | .word chars =>
    if isSpace c || c = '"' || (mark? c).isSome then
      (word? chars.reverse).map fun t => (s.emit t).start c
    else some { s with place := .word (c :: chars) }
  | .text points =>
    if c = '"' then (text? points).map s.emit
    else if c = '\\' then some { s with place := .escape points }
    else if c < ' ' then none
    else some { s with place := .text (c.toNat :: points) }
  | .escape points =>
    if c = 'u' then some { s with place := .code points 4 0 }
    else (shortEscape? c).map fun e => { s with place := .text (e.toNat :: points) }
  | .code points due value =>
    if Text.isHexDigit c then
      (Text.hexValue? c.toUInt8).map fun digit =>
        let value := 16 * value + digit
        { s with place :=
          if due ≤ 1 then .text (pushEscaped value points) else .code points (due - 1) value }
    else none

/-- The tokens of a text that ends here, in order. -/
def finish (s : Scan) : Option (List Token) :=
  match s.place with
  | .between => some s.tokens.reverse
  | .word chars => (word? chars.reverse).map fun t => (t :: s.tokens).reverse
  | _ => none

end Scan

def scan (cs : List Char) : Option (List Token) :=
  (cs.foldlM Scan.step {}).bind Scan.finish

end Token

end LedgerView.Json
