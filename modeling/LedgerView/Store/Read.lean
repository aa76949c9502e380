import LedgerView.BlockHash
import LedgerView.Store
/-!
# Reading the store

What the store answers. Transactions read for presentation leave out the transfers of deleted
tokens; the historical read and the reads for balances do not.
-/

namespace LedgerView.Store

def earliestSnapshot? (s : Store) : Option Int64 :=
  s.snapshots.keys.head?

/-- The record file of least index among those that end after a timestamp. -/
def firstRecordFileEndingAfter? (s : Store) (after : Int64) : Option RecordFile :=
  s.recordFiles.values.find? fun file => after < file.consensusEnd

def recordFileByIndex? (s : Store) (index : Int64) : Option RecordFile :=
  s.recordFiles.get? index

/-- The record file of least index among those with a hash, in whatever case. -/
def recordFileByHash? (s : Store) (hash : String) : Option RecordFile :=
  s.recordFiles.values.find? fun file => BlockHash.sameIgnoringCase file.hash hash

/-- The record file of greatest index. -/
def latestRecordFile? (s : Store) : Option RecordFile :=
  s.recordFiles.last?

def entity? (s : Store) (id : Int64) : Option Entity :=
  s.entities.get? id

/-- The timestamp of the latest snapshot up to a bound. -/
def latestSnapshot? (s : Store) (bound : Int64) : Option Int64 :=
  s.snapshots.latestKey? bound

def snapshotHbarBalance? (s : Store) (account snapshot : Int64) : Option Int64 :=
  (s.snapshots.get? snapshot).bind fun balances => balances.hbar.get? account

/-- The token balances of an account in a snapshot, by ascending token. -/
def snapshotTokenBalances (s : Store) (account snapshot : Int64) : List TokenBalance :=
  match (s.snapshots.get? snapshot).bind fun balances => balances.tokens.get? account with
  | some tokens => tokens.entries.map fun e => ⟨e.1, e.2⟩
  | none => []

/-- The raw hbar movements of an account after one timestamp and up to another. -/
def cryptoTransfers (s : Store) (account after upTo : Int64) : List CryptoTransfer :=
  ((s.transactions.after after upTo).flatMap TransactionRow.cryptoTransfers).filter fun t =>
    t.account = account

def tokenTransfers (s : Store) (account after upTo : Int64) : List TokenTransfer :=
  ((s.transactions.after after upTo).flatMap TransactionRow.tokenTransfers).filter fun t =>
    t.account = account

/-- The serials sent or received by an account. -/
def nftTransfers (s : Store) (account after upTo : Int64) : List NftTransfer :=
  ((s.transactions.after after upTo).flatMap TransactionRow.nftTransfers).filter fun t =>
    t.sender? = some account ∨ t.receiver? = some account

/-- The latest association event of every token of an account, by ascending token. Of events at
one timestamp the last one recorded counts. -/
def latestAssociationEvents (s : Store) (account bound : Int64) :
    List (Int64 × AssociationEvent) :=
  ((s.associations.get? account).getD ∅).entries.filterMap fun (token, events) =>
    (events.latest? bound).map fun event => (token, event)

/-- An association event with what is known of its token. -/
def joinToken (s : Store) (token : Int64) (event : AssociationEvent) :
    Except StoreError TokenAssociation :=
  match s.tokens.get? token with
  | some state => .ok {
      token
      associated := event.associated
      timestamp := event.timestamp
      decimals := state.decimals
      tokenType := state.tokenType
    }
  | none => .error (.corrupt (.unknownToken token))

def tokenAssociations (s : Store) (account bound : Int64) :
    Except StoreError (List TokenAssociation) :=
  (s.latestAssociationEvents account bound).mapM fun (token, event) => s.joinToken token event

/-- A token is live unless it is marked deleted; an unknown one is. -/
def isLive (s : Store) (token : Int64) : Bool :=
  match s.tokens.get? token with
  | some state => !state.deleted
  | none => true

/-- A row without the transfers of deleted tokens. -/
def liveRow (s : Store) (row : TransactionRow) : TransactionRow :=
  { row with
    tokenTransfers := row.tokenTransfers.filter fun t => s.isLive t.token
    nftTransfers := row.nftTransfers.filter fun t => s.isLive t.token }

/-- The first rows between two timestamps, both included. -/
def transactionsInRange (s : Store) (start stop : Int64) (limit : Nat) : List TransactionRow :=
  ((s.transactions.between start stop).take limit).map s.liveRow

def transactionsByHash (s : Store) (hash : Bytes) (start stop : Int64) : List TransactionRow :=
  ((s.transactions.between start stop).filter fun row => row.hash = hash).map s.liveRow

/-- The token and serial movements recorded at these timestamps, in the order of the rows. -/
def historicalTransfers (s : Store) (timestamps : List Int64) : List TransferCorrection :=
  (s.transactions.items.filter fun row => timestamps.contains row.consensusTimestamp).map
    fun row => ⟨row.consensusTimestamp, row.tokenTransfers, row.nftTransfers⟩

/-- The rows of the latest version of an address book file. -/
def latestAddressBook (s : Store) (file : Int64) : List EndpointRow :=
  ((s.addressBooks.get? file).bind Table.last?).getD []

/-- The entity with an alias; of several the one that comes first. -/
def entityOfAlias? (s : Store) (bytes : Bytes) : Option Entity :=
  (s.order.list s.entities).find? fun row => row.alias? = some bytes

def resolveAlias (s : Store) (bytes : Bytes) : Except StoreError (Option EntityId) :=
  match s.entityOfAlias? bytes with
  | none => .ok none
  | some row =>
    match EntityId.decode row.id with
    | .ok id => .ok (some id)
    | .error e => .error (.corrupt (.entityId e))

/-- The alias of an entity. -/
def aliasOf? (s : Store) (id : EntityId) : Option Bytes :=
  (s.entities.get? id.encode).bind Entity.alias?

end LedgerView.Store
