import LedgerView.EntityId
import LedgerView.Outcome
import LedgerView.Text.Hex
/-!
# Errors of the ledger and of its store

A store call fails because the store was out of reach or because what it holds makes no sense. A
query adds arguments it cannot accept, things it cannot find, and a ledger without any balance
snapshot.
-/

namespace LedgerView

/-- Why a store call brought nothing back. -/
inductive Unavailable where
  | io (message : String)
  | timeout (operation : String)
  deriving DecidableEq, Repr

def Unavailable.message : Unavailable → String
  | .io message => "Store I/O error: " ++ message
  | .timeout operation => "Store deadline exceeded during " ++ operation

/-- What is wrong with stored data. -/
inductive Corruption where
  /-- A column of a row holds no entity id. -/
  | rowId (error : EntityIdError)
  /-- The id of an entity found by its alias is none. -/
  | entityId (error : EntityIdError)
  | unknownToken (token : Int64)
  | emptyTransaction
  /-- The store's own report. -/
  | reported (message : String)
  deriving DecidableEq, Repr

def Corruption.message : Corruption → String
  | .rowId e => "corrupt entity id in ledger row: " ++ e.message
  | .entityId e => e.message
  | .unknownToken token => s!"association references unknown token {token.toInt}"
  | .emptyTransaction => "empty transaction group"
  | .reported message => message

inductive StoreError where
  | unavailable (reason : Unavailable)
  | corrupt (what : Corruption)
  deriving DecidableEq, Repr

def StoreError.message : StoreError → String
  | .unavailable reason => reason.message
  | .corrupt what => "Corrupt store data: " ++ what.message

/-- What is wrong with an argument of a query. -/
inductive BadArgument where
  | negativeIndex (index : Int64)
  | startAfterEnd (start stop : Int64)
  | emptyHash
  | malformedHash (text : String)
  /-- The digits of a hash spell no bytes. -/
  | undecodableHash (error : Text.HexError)
  | emptyAccount
  | emptyAlias
  | malformedAlias (text : String) (error : Text.HexError)
  | malformedAccount (error : EntityIdError)
  deriving DecidableEq, Repr

def hexErrorMessage : Text.HexError → String
  | .oddLength => "Odd number of digits"
  | .invalidByte byte position =>
    "Invalid character " ++ Text.quoteChar (Char.ofNat byte.toNat) ++
      s!" at position {position}"

def BadArgument.message : BadArgument → String
  | .negativeIndex index => s!"block index must not be negative: {index.toInt}"
  | .startAfterEnd start stop =>
    s!"start must not be after end: start {start.toInt} > end {stop.toInt}"
  | .emptyHash => "hash must not be empty"
  | .malformedHash text => "hash " ++ Text.quote text ++ " is not valid hex"
  | .undecodableHash error => hexErrorMessage error
  | .emptyAccount => "account must not be empty"
  | .emptyAlias => "account alias must not be empty"
  | .malformedAlias text error =>
    "invalid account alias " ++ Text.quote text ++ ": " ++ hexErrorMessage error
  | .malformedAccount error => error.message

inductive Missing where
  | block
  | account (id : EntityId)
  /-- The hash as the caller wrote it. -/
  | transaction (hash : String)
  deriving DecidableEq, Repr

def Missing.message : Missing → String
  | .block => "block not found"
  | .account id => "account " ++ id.text ++ " not found"
  | .transaction hash => "transaction " ++ hash ++ " not found"

inductive LedgerError where
  | invalidArgument (what : BadArgument)
  | notFound (what : Missing)
  /-- No balance snapshot is old enough. -/
  | nodeIsStarting
  | unavailable (reason : Unavailable)
  | corrupt (what : Corruption)
  deriving DecidableEq, Repr

/-- The kinds of error that callers and metrics tell apart. -/
inductive ErrorKind where
  | invalidArgument
  | notFound
  | nodeIsStarting
  | databaseError
  | internalServerError
  deriving DecidableEq, Repr

def ErrorKind.label : ErrorKind → String
  | .invalidArgument => "invalid_argument"
  | .notFound => "not_found"
  | .nodeIsStarting => "node_is_starting"
  | .databaseError => "database_error"
  | .internalServerError => "internal_server_error"

namespace LedgerError

def kind : LedgerError → ErrorKind
  | invalidArgument _ => .invalidArgument
  | notFound _ => .notFound
  | nodeIsStarting => .nodeIsStarting
  | unavailable _ => .databaseError
  | corrupt _ => .internalServerError

/-- Whether the same request may succeed later. -/
def isRetriable : LedgerError → Bool
  | nodeIsStarting | unavailable _ => true
  | _ => false

def message : LedgerError → String
  | invalidArgument what => "Invalid argument: " ++ what.message
  | notFound what => "Not found: " ++ what.message
  | nodeIsStarting => "Node is starting: no balance snapshot available"
  | unavailable reason => "Database error: " ++ reason.message
  | corrupt what => "Internal server error: " ++ what.message

/-- What a query reports when a store call fails. -/
def ofStore : StoreError → LedgerError
  | .unavailable reason => unavailable reason
  | .corrupt what => corrupt what

end LedgerError

/-- A word of a row that is no id means that the row is corrupt. -/
def corruptRow (e : EntityIdError) : LedgerError :=
  .corrupt (.rowId e)

/-- The entity that a column of a row names. -/
def decodeColumn (column : Int64) : Outcome LedgerError EntityId :=
  Outcome.ofExcept corruptRow (EntityId.decode column)

end LedgerView
