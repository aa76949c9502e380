import LedgerView.Error
import LedgerView.Record
import LedgerView.Table
/-!
# The store

The tables that records are kept in, and how each kind of record enters them. A record replaces
one with the same key, except for transactions and association events, which pile up in the order
of their timestamps. All tables are in the order of their keys, but for the entities: they are gone
through in an order of which nothing is known, and which may be another one whenever they change.
-/

namespace LedgerView

/-- The balances of all accounts at one time. -/
structure Snapshot where
  hbar : Table Int64 := ∅
  /-- By account, then by token. -/
  tokens : Table (Table Int64) := ∅
  deriving DecidableEq

structure TokenState where
  decimals : UInt32
  tokenType : TokenType
  deleted : Bool
  deriving DecidableEq, Repr

/-- An association or dissociation of one account and one token. -/
structure AssociationEvent where
  timestamp : Int64
  associated : Bool
  deriving DecidableEq, Repr

instance : Timed AssociationEvent := ⟨AssociationEvent.timestamp⟩

/-- An order in which the entities of a table are gone through: one for every table. -/
structure EntityOrder where
  list : Table Entity → List Entity
  perm : ∀ entities, (list entities).Perm entities.values

/-- By ascending id. -/
def EntityOrder.ascending : EntityOrder where
  list := Table.values
  perm _ := .refl _

structure Store where
  /-- By index. -/
  recordFiles : Table RecordFile := ∅
  /-- By timestamp. -/
  snapshots : Table Snapshot := ∅
  /-- By id. -/
  entities : Table Entity := ∅
  /-- By id. -/
  tokens : Table TokenState := ∅
  /-- By account, then by token. -/
  associations : Table (Table (Timeline AssociationEvent)) := ∅
  transactions : Timeline TransactionRow := ∅
  /-- By file, then by timestamp. -/
  addressBooks : Table (Table (List EndpointRow)) := ∅
  order : EntityOrder := .ascending

/-- One record on its way into the store. -/
inductive Ingestion where
  | recordFile (file : RecordFile)
  /-- A snapshot was taken, whether or not it holds any balance. -/
  | snapshot (timestamp : Int64)
  | hbarBalance (timestamp : Int64) (account : EntityId) (balance : Int64)
  | tokenBalance (timestamp : Int64) (account token : EntityId) (balance : Int64)
  | entity (row : Entity)
  | token (definition : TokenDefinition)
  | deleteToken (token : EntityId)
  | association (account token : EntityId) (associated : Bool) (timestamp : Int64)
  | transaction (row : TransactionRow)
  | addressBook (file : EntityId) (timestamp : Int64) (rows : List EndpointRow)
  deriving DecidableEq, Repr

namespace Store

def insertRecordFile (s : Store) (file : RecordFile) : Store :=
  { s with recordFiles := s.recordFiles.insert file.index file }

/-- Change the snapshot of a timestamp, which is empty until something is known of it. -/
def alterSnapshot (s : Store) (timestamp : Int64) (f : Snapshot → Snapshot) : Store :=
  { s with snapshots := s.snapshots.alter timestamp fun snapshot? => f (snapshot?.getD {}) }

def insertHbarBalance (s : Store) (timestamp account balance : Int64) : Store :=
  s.alterSnapshot timestamp fun snapshot =>
    { snapshot with hbar := snapshot.hbar.insert account balance }

def insertTokenBalance (s : Store) (timestamp account token balance : Int64) : Store :=
  s.alterSnapshot timestamp fun snapshot =>
    { snapshot with
      tokens := snapshot.tokens.alter account fun balances? =>
        (balances?.getD ∅).insert token balance }

def insertEntity (s : Store) (row : Entity) : Store :=
  { s with entities := s.entities.insert row.id row }

/-- A token that is defined anew is not deleted. -/
def insertToken (s : Store) (definition : TokenDefinition) : Store :=
  { s with
    tokens := s.tokens.insert definition.token
      ⟨definition.decimals, definition.tokenType, false⟩ }

/-- Mark a token deleted, if it is known. -/
def deleteToken (s : Store) (token : Int64) : Store :=
  match s.tokens.get? token with
  | some state => { s with tokens := s.tokens.insert token { state with deleted := true } }
  | none => s

/-- Whether or not the token is known, nothing but the tokens changes. -/
theorem deleteToken_eq (s : Store) (token : Int64) :
    s.deleteToken token = { s with tokens := (s.deleteToken token).tokens } := by
  unfold deleteToken
  split <;> rfl

def insertAssociation (s : Store) (account token : Int64) (event : AssociationEvent) : Store :=
  { s with
    associations := s.associations.alter account fun tokens? =>
      (tokens?.getD ∅).alter token fun events? => (events?.getD ∅).insert event }

def insertTransaction (s : Store) (row : TransactionRow) : Store :=
  { s with transactions := s.transactions.insert row }

def insertAddressBook (s : Store) (file timestamp : Int64) (rows : List EndpointRow) : Store :=
  { s with
    addressBooks := s.addressBooks.alter file fun books? =>
      (books?.getD ∅).insert timestamp rows }

def ingest (s : Store) : Ingestion → Store
  | .recordFile file => s.insertRecordFile file
  | .snapshot timestamp => s.alterSnapshot timestamp fun snapshot => snapshot
  | .hbarBalance timestamp account balance =>
    s.insertHbarBalance timestamp account.encode balance
  | .tokenBalance timestamp account token balance =>
    s.insertTokenBalance timestamp account.encode token.encode balance
  | .entity row => s.insertEntity row
  | .token definition => s.insertToken definition
  | .deleteToken token => s.deleteToken token.encode
  | .association account token associated timestamp =>
    s.insertAssociation account.encode token.encode ⟨timestamp, associated⟩
  | .transaction row => s.insertTransaction row
  | .addressBook file timestamp rows => s.insertAddressBook file.encode timestamp rows

def ingestAll (s : Store) (records : List Ingestion) : Store :=
  records.foldl ingest s

end Store

end LedgerView
