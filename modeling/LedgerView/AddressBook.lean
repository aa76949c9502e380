import LedgerView.Script
import LedgerView.Store.Read
/-!
# Address books

The nodes of the network and their service endpoints, gathered from one row per endpoint. The
current address book is made from the latest version of its file, or of the fallback file while the
first has no rows.
-/

namespace LedgerView

structure AddressBookEntry where
  nodeId : Int64
  account : EntityId
  /-- Each as the address, a colon and the number behind it. -/
  endpoints : List String
  deriving DecidableEq, Repr

namespace AddressBookEntry

/-- The entry with the endpoint of one more row, if the row has one. -/
def addRow (entry : AddressBookEntry) (row : EndpointRow) : AddressBookEntry :=
  if row.address = "" then entry
  else
    { entry with
      endpoints := entry.endpoints ++ [row.address ++ ":" ++ toString row.portNumber.toInt] }

/-- The entry of a node that comes up for the first time. -/
def start (row : EndpointRow) : Outcome LedgerError AddressBookEntry := do
  let account ← decodeColumn row.nodeAccount
  return { nodeId := row.node, account, endpoints := [] }

/-- Take in one row. The first row of a node decides on its account. -/
def gather (nodes : Table AddressBookEntry) (row : EndpointRow) :
    Outcome LedgerError (Table AddressBookEntry) := do
  let entry ←
    match nodes.get? row.node with
    | some entry => .ok entry
    | none => start row
  return nodes.insert row.node (entry.addRow row)

/-- One entry for every node, by ascending node id, with its endpoints in row order. -/
def ofRows (rows : List EndpointRow) : Outcome LedgerError (List AddressBookEntry) := do
  let nodes ← rows.foldlM gather ∅
  return nodes.values

end AddressBookEntry

namespace Script

def addressBookRows (file : EntityId) : Script (List EndpointRow) :=
  ask "latest_address_book_endpoints" fun store => store.latestAddressBook file.encode

def addressBook (file fallback : EntityId) : Script (List AddressBookEntry) := do
  let rows ← addressBookRows file
  let rows ← if rows = [] then addressBookRows fallback else pure rows
  done (AddressBookEntry.ofRows rows)

end Script

end LedgerView
