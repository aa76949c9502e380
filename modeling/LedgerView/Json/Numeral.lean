import LedgerView.Json
import LedgerView.Text.Digits
/-!
# Numbers as written in JSON

A number is an integer by the way it is written, not by its value: one with a point or an exponent
is a decimal also where its value is whole, and so is minus zero, which no integer stands for.
`read?_eq_int_iff` says that the integers are exactly the numbers written as such.
-/

namespace LedgerView.Json.Numeral

/-- The digits of a whole part, where no zero stands before another digit. -/
def natural? : List Char → Option Nat
  | '0' :: _ :: _ => none
  | cs => Text.number? cs

/-- Digits with or without a minus sign. -/
def integer? : List Char → Option Int
  | ['-', '0'] => none
  | '-' :: cs => (natural? cs).map fun n => -(n : Int)
  | cs => (natural? cs).map Int.ofNat

/-- The exponent at the end of a number; where nothing is left it is zero. -/
def exponent? : List Char → Option Int
  | [] => some 0
  | 'e' :: '-' :: cs | 'E' :: '-' :: cs => (Text.number? cs).map fun n => -(n : Int)
  | 'e' :: cs | 'E' :: cs => (Text.plusNumber? cs).map Int.ofNat
  | _ => none

/-- The digits of a number without a sign, and how many of them stand behind the point. -/
def magnitude? (cs : List Char) : Option (Nat × Int) := do
  let whole := cs.takeWhile Char.isDigit
  let n ← natural? whole
  match cs.dropWhile Char.isDigit with
  | '.' :: rest =>
    let fraction := rest.takeWhile Char.isDigit
    let _ ← Text.number? fraction
    let digits ← Text.number? (whole ++ fraction)
    let exponent ← exponent? (rest.dropWhile Char.isDigit)
    return (digits, fraction.length - exponent)
  | rest =>
    let exponent ← exponent? rest
    return (n, -exponent)

def decimal? : List Char → Option Json
  | '-' :: cs => (magnitude? cs).map fun m => .decimal (-(m.1 : Int)) m.2
  | cs => (magnitude? cs).map fun m => .decimal m.1 m.2

/-- The number that is written so. -/
def read? (cs : List Char) : Option Json :=
  match integer? cs with
  | some n => some (.int n)
  | none => decimal? cs

theorem decimal?_ne_int (cs : List Char) (n : Int) : decimal? cs ≠ some (.int n) := by
  unfold decimal?
  split <;> simp [Option.map_eq_some_iff]

theorem read?_eq_int_iff {cs : List Char} {n : Int} :
    read? cs = some (.int n) ↔ integer? cs = some n := by
  cases h : integer? cs with
  | none => simp [read?, h, decimal?_ne_int]
  | some m => simp [read?, h]

end LedgerView.Json.Numeral
