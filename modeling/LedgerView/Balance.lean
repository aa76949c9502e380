import LedgerView.Checked
import LedgerView.Record
/-!
# Balance windows and hbar

A balance is what the latest usable snapshot holds and what moved after it. For a deleted account
both are taken as of its deletion: movements up to it, the snapshot strictly before it.
-/

namespace LedgerView

variable {ε : Type}

structure BalanceWindow where
  /-- Movements count up to here. -/
  changeEnd : Int64
  /-- The snapshot is the latest up to here. -/
  snapshotEnd : Int64
  deriving DecidableEq, Repr

def BalanceWindow.of (entity? : Option Entity) (stop : Int64) : Outcome ε BalanceWindow :=
  match entity?.bind Entity.deletedAt? with
  | some deletedAt =>
    if deletedAt ≤ stop then do
      let snapshotEnd ← subChecked deletedAt 1
      return ⟨deletedAt, snapshotEnd⟩
    else return ⟨stop, stop⟩
  | none => return ⟨stop, stop⟩

/-- The sum of the movements that count. -/
def sumHbarDeltas (transfers : List CryptoTransfer) : Outcome ε Int64 :=
  sumChecked ((transfers.filter CryptoTransfer.isEffective).map CryptoTransfer.amount)

end LedgerView
