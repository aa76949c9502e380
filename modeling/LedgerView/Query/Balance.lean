import LedgerView.Account.Selector
import LedgerView.Balance.Token
import LedgerView.Script
import LedgerView.Store.Read
/-!
# Balances at a point in time

The latest usable snapshot is found, what it holds and what moved after it is read in one go, and
the balance is worked out from that.
-/

namespace LedgerView

/-- What one account's balance is worked out from. -/
structure BalanceInputs where
  snapshotHbar? : Option Int64
  cryptoTransfers : List CryptoTransfer
  tokens : TokenLedger
  deriving DecidableEq, Repr

/-- Everything about an account between a snapshot and the end of a window. -/
def Store.balanceInputs (s : Store) (account snapshot changeEnd : Int64) :
    Except StoreError BalanceInputs := do
  let associations ← s.tokenAssociations account changeEnd
  return {
    snapshotHbar? := s.snapshotHbarBalance? account snapshot
    cryptoTransfers := s.cryptoTransfers account snapshot changeEnd
    tokens := {
      account
      snapshotTimestamp := snapshot
      associations
      snapshotBalances := s.snapshotTokenBalances account snapshot
      tokenTransfers := s.tokenTransfers account snapshot changeEnd
      nftTransfers := s.nftTransfers account snapshot changeEnd
    }
  }

/-- Hbar first, then the tokens. -/
def BalanceInputs.amounts (inputs : BalanceInputs) : Outcome LedgerError (List Amount) := do
  let deltas ← sumHbarDeltas inputs.cryptoTransfers
  let hbar ← addChecked (inputs.snapshotHbar?.getD 0) deltas
  let tokens ← Outcome.mapCause corruptRow inputs.tokens.amounts
  return .hbar hbar :: tokens

namespace Script

/-- The entity behind a selector, if there is one, and the account under both its names as far as
they are known. -/
def account : AccountSelector → Script (AccountId × Option Entity)
  | .byId id => do
    let entity ←
      find "entity" (.notFound (.account id)) fun store => store.entity? id.encode
    let alias? ← ask "resolve_entity" fun store => store.aliasOf? id
    return (⟨some id, alias?⟩, some entity)
  | .byAlias bytes => do
    match ← askChecked "resolve_alias" fun store => store.resolveAlias bytes with
    | none => return (⟨none, some bytes⟩, none)
    | some id =>
      let entity? ← ask "entity" fun store => store.entity? id.encode
      return (⟨some id, some bytes⟩, entity?)

/-- The balance of an entity at a time. -/
def entityBalance (id : EntityId) (entity? : Option Entity) (stop : Int64) :
    Script (List Amount) := do
  let window ← done (BalanceWindow.of entity? stop)
  let snapshot ←
    find "latest_snapshot_timestamp" .nodeIsStarting fun store =>
      store.latestSnapshot? window.snapshotEnd
  let inputs ←
    askChecked "snapshot_hbar_balance" fun store =>
      store.balanceInputs id.encode snapshot window.changeEnd
  done inputs.amounts

/-- The balance of an account at a time. An alias that belongs to no entity has never held
anything. -/
def balance (selector : AccountSelector) (stop : Int64) : Script AccountBalance := do
  let (account, entity?) ← account selector
  match account.entityId? with
  | none => return .of account [.hbar 0]
  | some id =>
    let amounts ← entityBalance id entity? stop
    return .of account amounts

end Script

end LedgerView
