import LedgerView.EntityId
import LedgerView.Json
import LedgerView.Text.Hex
/-!
# Reading JSON

Readers for the parts that read models are made of. A record is an object with its fields by name,
where fields that it does not know are passed over, or a list with its fields in order. A field
may be allowed to be missing; a null stands for an absent option.
-/

namespace LedgerView.Json

variable {α : Type}

/-- The value of the first field of a name. -/
def field? (name : String) : List (String × Json) → Option Json
  | [] => none
  | (n, value) :: rest => if n = name then some value else field? name rest

/-- As many values as there are names, absent ones behind the list's end. -/
def padded : List String → List Json → List (Option Json)
  | [], _ => []
  | _ :: names, [] => none :: padded names []
  | _ :: names, item :: items => some item :: padded names items

/-- The fields of a record in the order of `names`. In a list the first `least` must be there, and
there must be no more than there are names. -/
def record? (names : List String) (least : Nat) : Json → Option (List (Option Json))
  | object fields => some (names.map fun name => field? name fields)
  | list items =>
    if least ≤ items.length ∧ items.length ≤ names.length then some (padded names items)
    else none
  | _ => none

/-- A field that must be there. -/
def required (reader : Json → Option α) (value? : Option Json) : Option α :=
  value?.bind reader

/-- A field that may be missing or null. -/
def optional (reader : Json → Option α) : Option Json → Option (Option α)
  | none | some null => some none
  | some value => (reader value).map some

/-- A field that has a value also where it is missing. -/
def defaulted (missing : α) (reader : Json → Option α) : Option Json → Option α
  | none => some missing
  | some value => reader value

def int? : Json → Option Int
  | int n => some n
  | _ => none

/-- A whole number below a bound. -/
def below? (bound : Nat) (value : Json) : Option Nat :=
  match value with
  | int n => if 0 ≤ n ∧ n < bound then some n.toNat else none
  | _ => none

def int64? : Json → Option Int64
  | int n => if -0x8000000000000000 ≤ n ∧ n < 0x8000000000000000 then some (Int64.ofInt n) else none
  | _ => none

def uint64? (value : Json) : Option UInt64 :=
  (value.below? 0x10000000000000000).map UInt64.ofNat

def uint32? (value : Json) : Option UInt32 :=
  (value.below? 0x100000000).map UInt32.ofNat

def byte? (value : Json) : Option UInt8 :=
  (value.below? 0x100).map UInt8.ofNat

def text? : Json → Option String
  | text s => some s
  | _ => none

def list? (reader : Json → Option α) : Json → Option (List α)
  | list items => items.mapM reader
  | _ => none

def object? : Json → Option (List (String × Json))
  | object fields => some fields
  | _ => none

def ofInt64 (n : Int64) : Json :=
  int n.toInt

def ofBytes (bytes : Bytes) : Json :=
  list (bytes.map fun b => int b.toNat)

/-- A field that is written only where there is something to write. -/
def fieldIf (name : String) : Option Json → List (String × Json)
  | some value => [(name, value)]
  | none => []

end LedgerView.Json
