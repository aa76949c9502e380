import LedgerView.Assembly
/-!
# Corrections of dissociations

A successful dissociation of a token takes away the association through which its own token
transfers are found, so these rows are completed from what was recorded.
-/

namespace LedgerView

namespace TransactionRow

def needsCorrection (row : TransactionRow) : Bool :=
  row.transactionType = CodeBook.tokenDissociate && row.succeeded

/-- The row with the token and serial movements that were recorded. -/
def corrected (row : TransactionRow) (c : TransferCorrection) : TransactionRow :=
  { row with tokenTransfers := c.tokenTransfers, nftTransfers := c.nftTransfers }

end TransactionRow

/-- Apply corrections in a single pass over the rows: each goes to the next row of its
timestamp. Rows and corrections are in the order of their timestamps. -/
def applyCorrections : List TransactionRow → List TransferCorrection → List TransactionRow
  | [], _ => []
  | rows, [] => rows
  | row :: rows, c :: corrections =>
    if row.consensusTimestamp = c.consensusTimestamp then
      row.corrected c :: applyCorrections rows corrections
    else row :: applyCorrections rows (c :: corrections)

end LedgerView
