import LedgerView.Json.Token
/-!
# Reading JSON texts

A text holds one value. Where an object has a name twice, the later value counts.
-/

namespace LedgerView.Json

/-- A field before others, which it gives way to if they have its name. -/
def consField (field : String × Json) (fields : List (String × Json)) : List (String × Json) :=
  if fields.any fun other => other.1 = field.1 then fields else field :: fields

mutual

/-- The value at the front of the tokens and the tokens behind it. -/
def value? : Nat → List Token → Option (Json × List Token)
  | 0, _ => none
  | _ + 1, .atom value :: rest => some (value, rest)
  | _ + 1, .text s :: rest => some (text s, rest)
  | _ + 1, .openList :: .closeList :: rest => some (list [], rest)
  | fuel + 1, .openList :: rest => do
    let (items, rest) ← items? fuel rest
    return (list items, rest)
  | _ + 1, .openObject :: .closeObject :: rest => some (object [], rest)
  | fuel + 1, .openObject :: rest => do
    let (fields, rest) ← fields? fuel rest
    return (object fields, rest)
  | _ + 1, _ => none

/-- One or more items and the end of the list. -/
def items? : Nat → List Token → Option (List Json × List Token)
  | 0, _ => none
  | fuel + 1, tokens => do
    match ← value? fuel tokens with
    | (item, .closeList :: rest) => return ([item], rest)
    | (item, .comma :: rest) =>
      let (items, rest) ← items? fuel rest
      return (item :: items, rest)
    | _ => none

/-- One or more fields and the end of the object. -/
def fields? : Nat → List Token → Option (List (String × Json) × List Token)
  | fuel + 1, .text name :: .colon :: tokens => do
    match ← value? fuel tokens with
    | (value, .closeObject :: rest) => return ([(name, value)], rest)
    | (value, .comma :: rest) =>
      let (fields, rest) ← fields? fuel rest
      return (consField (name, value) fields, rest)
    | _ => none
  | _, _ => none

end

/-- The value that the tokens spell. Of any two calls in a row one passes a token, so that the
fuel suffices. -/
def ofTokens? (tokens : List Token) : Option Json :=
  match value? (2 * tokens.length + 1) tokens with
  | some (value, []) => some value
  | _ => none

def parse? (s : String) : Option Json :=
  (Token.scan s.toList).bind ofTokens?

end LedgerView.Json
