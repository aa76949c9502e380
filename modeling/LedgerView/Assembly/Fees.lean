import LedgerView.Record
import LedgerView.Tally
/-!
# Fees

The raw hbar movements of a row contain everything: itemized transfers, staking rewards and fees.
What the first two do not explain of an account's raw total is a fee.
-/

namespace LedgerView

variable {ε : Type}

namespace HbarTransfer

def toPair (t : HbarTransfer) : Int64 × Int64 :=
  (t.account, t.amount)

def ofPair (p : Int64 × Int64) : HbarTransfer :=
  ⟨p.1, p.2⟩

end HbarTransfer

namespace TransactionRow

/-- The raw hbar movements that count. -/
def effectiveTransfers (row : TransactionRow) : List CryptoTransfer :=
  row.cryptoTransfers.filter CryptoTransfer.isEffective

/-- The raw total of every account, in order of first appearance. -/
def rawTotals (row : TransactionRow) : Outcome ε Tally :=
  Tally.addAll (row.effectiveTransfers.map fun t => (t.account, t.amount)) []

/-- The fees of a row, given its transfers that are explained otherwise: every account with a raw
total that is not used up by them, in order of first appearance. -/
def fees (row : TransactionRow) (explained : List HbarTransfer) :
    Outcome ε (List HbarTransfer) := do
  let raw ← row.rawTotals
  let left ← Tally.takeAwayAll (explained.map HbarTransfer.toPair) raw
  return left.remainders.map HbarTransfer.ofPair

end TransactionRow

end LedgerView
