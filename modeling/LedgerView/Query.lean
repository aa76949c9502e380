import LedgerView.AddressBook
import LedgerView.Config
import LedgerView.Query.Balance
import LedgerView.Query.Transactions
/-!
# Queries

Everything that can be asked of the ledger, and the script that answers it.
-/

namespace LedgerView

inductive Query where
  | resolveBlock (selector : BlockSelector)
  | balance (account : AccountSelector) (stop : Int64)
  | balanceAtBlock (account : AccountSelector) (selector : BlockSelector)
  | transactions (start stop : Int64)
  | transactionByHash (hash : String) (start stop : Int64)
  | blockTransactions (selector : BlockSelector)
  | addressBook
  deriving DecidableEq, Repr

def Query.name : Query → QueryName
  | .resolveBlock .. => .resolveBlock
  | .balance .. => .getBalance
  | .balanceAtBlock .. => .getBalanceAtBlock
  | .transactions .. => .getTransactionsInRange
  | .transactionByHash .. => .getTransactionByHash
  | .blockTransactions .. => .getBlockTransactions
  | .addressBook => .addressBook

inductive Answer where
  | block (block : Block)
  | balance (balance : AccountBalance)
  | balanceAtBlock (block : Block) (balance : AccountBalance)
  | transactions (transactions : List Transaction)
  | transaction (transaction : Transaction)
  | blockTransactions (block : Block) (transactions : List Transaction)
  | addressBook (entries : List AddressBookEntry)
  deriving DecidableEq, Repr

/-- What a service answers with. -/
structure Settings where
  config : LedgerConfig
  codes : CodeBook
  deriving DecidableEq, Repr

namespace Settings

def assembler (s : Settings) : Assembler :=
  ⟨s.codes, s.config.stakingRewardAccount.encode⟩

def batch (s : Settings) : Nat :=
  s.config.batchSize.toNat

def script (s : Settings) : Query → Script Answer
  | .resolveBlock selector => do
    let block ← Script.block selector
    return .block block
  | .balance account stop => do
    let balance ← Script.balance account stop
    return .balance balance
  | .balanceAtBlock account selector => do
    let block ← Script.block selector
    let balance ← Script.balance account block.consensusEnd
    return .balanceAtBlock block balance
  | .transactions start stop => do
    let transactions ← Script.transactions s.assembler s.batch start stop
    return .transactions transactions
  | .transactionByHash hash start stop => do
    let transaction ← Script.transactionByHash s.assembler hash start stop
    return .transaction transaction
  | .blockTransactions selector => do
    let block ← Script.block selector
    let transactions ←
      Script.transactions s.assembler s.batch block.consensusStart block.consensusEnd
    return .blockTransactions block transactions
  | .addressBook => do
    let entries ← Script.addressBook s.config.addressBookFile s.config.fallbackFile
    return .addressBook entries

end Settings

end LedgerView
