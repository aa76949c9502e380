import LedgerView.Checked
/-!
# Tallies

Totals by account or token, in the order in which the keys first came up. Amounts are added and
taken away one by one, each step checked.
-/

namespace LedgerView

abbrev Tally := List (Int64 × Int64)

namespace Tally

variable {ε : Type}

/-- Add to the total of a key, which starts at zero. -/
def add (key amount : Int64) : Tally → Outcome ε Tally
  | [] => do
    let total ← addChecked 0 amount
    return [(key, total)]
  | (k, total) :: rest =>
    if k = key then do
      let total ← addChecked total amount
      return (k, total) :: rest
    else do
      let rest ← add key amount rest
      return (k, total) :: rest

/-- Take away from the total of a key, if it has one. -/
def takeAway (key amount : Int64) : Tally → Outcome ε Tally
  | [] => return []
  | (k, total) :: rest =>
    if k = key then do
      let total ← subChecked total amount
      return (k, total) :: rest
    else do
      let rest ← takeAway key amount rest
      return (k, total) :: rest

def addAll (amounts : List (Int64 × Int64)) (tally : Tally) : Outcome ε Tally :=
  amounts.foldlM (fun t a => add a.1 a.2 t) tally

def takeAwayAll (amounts : List (Int64 × Int64)) (tally : Tally) : Outcome ε Tally :=
  amounts.foldlM (fun t a => takeAway a.1 a.2 t) tally

/-- The total of a key, zero if it never came up. -/
def total (tally : Tally) (key : Int64) : Int64 :=
  match tally with
  | [] => 0
  | (k, t) :: rest => if k = key then t else total rest key

/-- The keys with something left, each with what is left. -/
def remainders (tally : Tally) : List (Int64 × Int64) :=
  tally.filter fun e => e.2 ≠ 0

end Tally

end LedgerView
