import LedgerView.Balance
import LedgerView.Leg
import LedgerView.Table
import LedgerView.Tally
/-!
# Token balances

Which tokens an account shows, and how much of each. An associated token shows its snapshot
balance and what moved since. A token dissociated after the snapshot shows an explicit zero; one
dissociated before is gone.
-/

namespace LedgerView

variable {ε : Type}

/-- The serials received less the serials sent, for every token of which the account sent or
received any. -/
def netNftCount (account : Int64) (transfers : List NftTransfer) : Table Int :=
  ((transfers.flatMap NftTransfer.legs).filter fun l => l.account = account).foldl
    (fun counts l => counts.alter l.token fun n => n.getD 0 + l.delta.toInt) ∅

/-- What the token side of a balance is worked out from. -/
structure TokenLedger where
  account : Int64
  snapshotTimestamp : Int64
  associations : List TokenAssociation
  snapshotBalances : List TokenBalance
  tokenTransfers : List TokenTransfer
  nftTransfers : List NftTransfer
  deriving DecidableEq, Repr

namespace TokenLedger

/-- The snapshot balance by token; of two for one token the later counts. -/
def snapshotTable (l : TokenLedger) : Table Int64 :=
  Table.ofList (l.snapshotBalances.map fun b => (b.token, b.balance))

/-- The sum of the fungible movements by token. -/
def fungibleDeltas (l : TokenLedger) : Outcome ε Tally :=
  Tally.addAll ((l.tokenTransfers.filter fun t => t.tokenType = .fungibleCommon).map fun t =>
    (t.token, t.amount)) []

/-- The value shown for an association, if it is shown. -/
def value? (l : TokenLedger) (deltas : Tally) (association : TokenAssociation) :
    Outcome ε (Option Int64) :=
  if association.associated then do
    let base := (l.snapshotTable.get? association.token).getD 0
    let delta :=
      match association.tokenType with
      | .fungibleCommon => (deltas.total association.token).toInt
      | .nonFungibleUnique => ((netNftCount l.account l.nftTransfers).get? association.token).getD 0
    let value ← fit .add (base.toInt + delta)
    return some value
  else if l.snapshotTimestamp < association.timestamp then return some 0
  else return none

/-- The amount shown for an association, if it is shown. -/
def amount? (l : TokenLedger) (deltas : Tally) (association : TokenAssociation) :
    Outcome EntityIdError (Option Amount) := do
  match ← l.value? deltas association with
  | none => return none
  | some value =>
    let tokenId ← Outcome.ofExcept (fun e => e) (EntityId.decode association.token)
    return some (.token {
      tokenId
      decimals := association.decimals
      tokenType := association.tokenType
      value
      serialNumbers := []
    })

/-- The associations by ascending token. Of one token they keep their order. -/
def sortedAssociations (l : TokenLedger) : List TokenAssociation :=
  l.associations.mergeSort fun a b => a.token ≤ b.token

/-- The token amounts by ascending token. -/
def amounts (l : TokenLedger) : Outcome EntityIdError (List Amount) := do
  let deltas ← l.fungibleDeltas
  let shown ← l.sortedAssociations.mapM (l.amount? deltas)
  return shown.filterMap fun amount? => amount?

end TokenLedger

end LedgerView
