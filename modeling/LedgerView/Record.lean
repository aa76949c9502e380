import LedgerView.Amount
import LedgerView.Text.Hex
import LedgerView.Timeline
/-!
# Ledger records

The rows that the ledger is kept in. Ids are packed words here: a row may hold a word that is no
id, which shows only when the row is presented.
-/

namespace LedgerView

/-- One record file, the unit that becomes a block. -/
structure RecordFile where
  index : Int64
  hash : String
  prevHash : String
  consensusStart : Int64
  consensusEnd : Int64
  deriving DecidableEq, Repr

/-- An account, or another entity, and when it was deleted. -/
structure Entity where
  id : Int64
  alias? : Option Bytes
  deletedAt? : Option Int64
  deriving DecidableEq, Repr

/-- A correction made after the fact. -/
inductive Errata where
  /-- The row was added later and counts like any other. -/
  | inserted
  /-- The row was retracted and does not count. -/
  | deleted
  deriving DecidableEq, Repr

/-- A raw movement of hbar, fees included. -/
structure CryptoTransfer where
  account : Int64
  amount : Int64
  errata? : Option Errata
  deriving DecidableEq, Repr

/-- A retracted row moves nothing. -/
def CryptoTransfer.isEffective (t : CryptoTransfer) : Bool :=
  t.errata? ≠ some .deleted

/-- A movement of hbar without fees: an itemized transfer, a staking reward, or a leg that is
worked out. -/
structure HbarTransfer where
  account : Int64
  amount : Int64
  deriving DecidableEq, Repr

/-- A movement of a token, with what is known of the token. -/
structure TokenTransfer where
  account : Int64
  token : Int64
  amount : Int64
  decimals : UInt32
  tokenType : TokenType
  deriving DecidableEq, Repr

/-- The movement of one serial of a non-fungible token. A mint has no sender, a burn or a wipe no
receiver. -/
structure NftTransfer where
  sender? : Option Int64
  receiver? : Option Int64
  serialNumber : Int64
  token : Int64
  deriving DecidableEq, Repr

structure TokenDefinition where
  token : Int64
  decimals : UInt32
  tokenType : TokenType
  freezeDefault : Bool
  initialSupply : Int64
  deriving DecidableEq, Repr

/-- Whether an account is associated with a token, and since when. -/
structure TokenAssociation where
  token : Int64
  associated : Bool
  timestamp : Int64
  decimals : UInt32
  tokenType : TokenType
  deriving DecidableEq, Repr

/-- What an account holds of a token in a snapshot. -/
structure TokenBalance where
  token : Int64
  balance : Int64
  deriving DecidableEq, Repr

/-- A transaction as recorded, with all its transfers. -/
structure TransactionRow where
  consensusTimestamp : Int64
  hash : Bytes
  transactionType : Int32
  result : Int32
  payer : Int64
  entity? : Option Int64
  memo : Bytes
  cryptoTransfers : List CryptoTransfer
  itemizedTransfers : List HbarTransfer
  tokenTransfers : List TokenTransfer
  nftTransfers : List NftTransfer
  stakingRewards : List HbarTransfer
  token? : Option TokenDefinition
  deriving DecidableEq, Repr

instance : Timed TransactionRow := ⟨TransactionRow.consensusTimestamp⟩

/-- The token and serial movements of one transaction as they were recorded. -/
structure TransferCorrection where
  consensusTimestamp : Int64
  tokenTransfers : List TokenTransfer
  nftTransfers : List NftTransfer
  deriving DecidableEq, Repr

/-- One service endpoint of a node. A node without endpoints has one row with an empty address. -/
structure EndpointRow where
  node : Int64
  nodeAccount : Int64
  address : String
  portNumber : Int32
  deriving DecidableEq, Repr

end LedgerView
