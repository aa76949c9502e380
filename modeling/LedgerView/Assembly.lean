import LedgerView.Assembly.Fees
import LedgerView.CodeBook
import LedgerView.Operation
/-!
# Assembly of transactions

Rows that share a hash form one transaction. If any of them took effect, the transaction shows
the operations of all of them in row order; otherwise it shows a single operation on the payer
that moves nothing. Within a row come, in this order, itemized transfers, fees, staking rewards
with their debit, fungible token transfers, serial movements, and the definition of a token.
-/

namespace LedgerView

variable {ε : Type}

def TransactionRow.succeeded (row : TransactionRow) : Bool :=
  CodeBook.isSuccess row.result

/-- What assembly depends on besides the rows. -/
structure Assembler where
  codes : CodeBook
  /-- The account that pays staking rewards. -/
  rewardAccount : Int64
  deriving DecidableEq, Repr

namespace Assembler

/-- The itemized transfers of accounts that the row really touched: those with an effective raw
transfer, and the reward account if the row pays rewards. -/
def nonFeeTransfers (a : Assembler) (row : TransactionRow) : List HbarTransfer :=
  row.itemizedTransfers.filter fun t =>
    (!row.stakingRewards.isEmpty && t.account = a.rewardAccount) ||
      row.effectiveTransfers.any fun c => c.account = t.account

/-- The staking rewards of a row and the debit of their sum, if there are any. -/
def rewardTransfers (a : Assembler) (row : TransactionRow) : Outcome ε (List HbarTransfer) :=
  if row.stakingRewards.isEmpty then return []
  else do
    let total ← sumChecked (row.stakingRewards.map HbarTransfer.amount)
    let debit ← negChecked total
    return row.stakingRewards ++ [⟨a.rewardAccount, debit⟩]

/-- The fields that present a token definition. -/
def tokenMetadata (tokenId : EntityId) (token : TokenDefinition) : List (String × Json) :=
  [("currency", .object [
      ("symbol", .text tokenId.text),
      ("decimals", .int token.decimals.toNat),
      ("metadata", .object [("type", .text token.tokenType.label)])]),
    ("freeze_default", .bool token.freezeDefault),
    ("initial_supply", .int token.initialSupply.toInt)]

/-- The operation that carries the token definition of a row whose type defines tokens. -/
def definitionDrafts (a : Assembler) (row : TransactionRow) :
    Outcome LedgerError (List Draft) :=
  match row.token? with
  | none => return []
  | some token =>
    if CodeBook.definesToken row.transactionType then do
      let account ← decodeColumn row.payer
      let tokenId ← decodeColumn token.token
      return [{
        operationType := a.codes.transactionType row.transactionType
        status := a.codes.result row.result
        account
        amount := .token {
          tokenId
          decimals := token.decimals
          tokenType := token.tokenType
          value := 0
          serialNumbers := []
        }
        metadata? := some (tokenMetadata tokenId token)
      }]
    else return []

/-- The operations of one row. -/
def rowDrafts (a : Assembler) (row : TransactionRow) : Outcome LedgerError (List Draft) := do
  let present := Draft.ofLeg (a.codes.transactionType row.transactionType)
    (a.codes.result row.result)
  let nonFee := a.nonFeeTransfers row
  let itemized ← nonFee.mapM fun t => present t.leg
  let rewards ← a.rewardTransfers row
  let fees ← row.fees ((if row.succeeded then nonFee else []) ++ rewards)
  let feeDrafts ← fees.mapM fun t =>
    Draft.ofLeg CodeBook.feeType CodeBook.successStatus t.leg
  let rewardDrafts ← rewards.mapM fun t =>
    Draft.ofLeg CodeBook.rewardType CodeBook.successStatus t.leg
  let fungible := row.tokenTransfers.filter fun t => t.tokenType = .fungibleCommon
  let tokens ← fungible.mapM fun t => present t.leg
  let serials ← (row.nftTransfers.flatMap NftTransfer.legs).mapM fun l => present l.leg
  let definition ← a.definitionDrafts row
  return itemized ++ feeDrafts ++ rewardDrafts ++ tokens ++ serials ++ definition

/-- The single operation of a transaction of which no row took effect. -/
def failedDraft (a : Assembler) (row : TransactionRow) : Outcome LedgerError Draft :=
  Draft.ofLeg (a.codes.transactionType row.transactionType) (a.codes.result row.result)
    ⟨row.payer, .hbar 0⟩

/-- The transaction of rows that share a hash. Memo and entity are those of the first row that
took effect, or of the first row if none did. -/
def build (a : Assembler) : List TransactionRow → Outcome LedgerError Transaction
  | [] => Outcome.fail (.corrupt .emptyTransaction)
  | first :: others => do
    let rows := first :: others
    let primary? := rows.find? TransactionRow.succeeded
    let drafts ←
      match primary? with
      | some _ => List.flatten <$> rows.mapM a.rowDrafts
      | none => (fun draft => [draft]) <$> a.failedDraft first
    let source := primary?.getD first
    let entityId? ← source.entity?.mapM decodeColumn
    return {
      hash := Text.prefixedHex first.hash
      entityId?
      memo := source.memo
      operations := Draft.numberFrom 0 drafts
    }

/-- Put a row behind the rows of its hash, or into a group of its own at the end. -/
def placeRow (row : TransactionRow) : List (Bytes × List TransactionRow) →
    List (Bytes × List TransactionRow)
  | [] => [(row.hash, [row])]
  | (hash, rows) :: rest =>
    if hash = row.hash then (hash, rows ++ [row]) :: rest
    else (hash, rows) :: placeRow row rest

/-- The rows by hash, in order of first appearance. -/
def groupByHash (rows : List TransactionRow) : List (Bytes × List TransactionRow) :=
  rows.foldl (fun groups row => placeRow row groups) []

/-- One transaction for every hash, in order of first appearance. -/
def assemble (a : Assembler) (rows : List TransactionRow) :
    Outcome LedgerError (List Transaction) :=
  (groupByHash rows).mapM fun group => a.build group.2

end Assembler

end LedgerView
