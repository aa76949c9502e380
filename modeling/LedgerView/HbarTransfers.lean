import LedgerView.CodeBook
import LedgerView.Checked
import LedgerView.Record
/-!
# Plain hbar transfers

Rows for successful transfers of hbar between two accounts, with a fee that the sender pays to
node 0.0.3.
-/

namespace LedgerView

variable {ε : Type}

/-- The eight bytes of a word, most significant first. -/
def bigEndian (word : Int64) : Bytes :=
  let n := word.toUInt64.toNat
  [56, 48, 40, 32, 24, 16, 8, 0].map fun shift => UInt8.ofNat ((n >>> shift) % 256)

/-- The transfer of an amount. Its hash is its timestamp. -/
def TransactionRow.hbarTransfer (consensusTimestamp sender receiver amount fee : Int64) :
    Outcome ε TransactionRow := do
  let spent ← addChecked amount fee
  let spent ← negChecked spent
  let sent ← negChecked amount
  let feeTransfers := if fee = 0 then [] else [⟨3, fee, none⟩]
  return {
    consensusTimestamp
    hash := bigEndian consensusTimestamp
    transactionType := 14
    result := 22
    payer := sender
    entity? := none
    memo := []
    cryptoTransfers := ⟨sender, spent, none⟩ :: ⟨receiver, amount, none⟩ :: feeTransfers
    itemizedTransfers := [⟨sender, sent⟩, ⟨receiver, amount⟩]
    tokenTransfers := []
    nftTransfers := []
    stakingRewards := []
    token? := none
  }

/-- A series of equal transfers, the first at `first` and each `interval` after the one before.
There are none if `count` is negative. -/
def TransactionRow.hbarTransfers (first interval count : Int64)
    (sender receiver amount fee : Int64) : Outcome ε (List TransactionRow) :=
  (List.range count.toNatClampNeg).mapM fun (i : Nat) => do
    let consensusTimestamp ← fit .add (first.toInt + (i : Int) * interval.toInt)
    hbarTransfer consensusTimestamp sender receiver amount fee

end LedgerView
