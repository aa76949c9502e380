import LedgerView.Error
import LedgerView.Json
import LedgerView.Leg
/-!
# Operations and transactions

An operation is one signed change of one account's balance. A transaction lists its operations,
numbered from zero in the order in which they arise.
-/

namespace LedgerView

structure Operation where
  index : Int64
  operationType : String
  status : String
  account : EntityId
  amount : Amount
  /-- The fields of an object. -/
  metadata? : Option (List (String × Json))
  deriving DecidableEq, Repr

structure Transaction where
  hash : String
  entityId? : Option EntityId
  memo : Bytes
  operations : List Operation
  deriving DecidableEq, Repr

/-- An operation that has no number yet. -/
structure Draft where
  operationType : String
  status : String
  account : EntityId
  amount : Amount
  metadata? : Option (List (String × Json)) := none
  deriving DecidableEq, Repr

namespace Draft

/-- A leg under an operation type and a status. Its account is decoded first, then its token. -/
def ofLeg (operationType status : String) (leg : Leg) : Outcome LedgerError Draft := do
  let account ← decodeColumn leg.account
  let amount ← Outcome.ofExcept corruptRow leg.movement.amount
  return { operationType, status, account, amount }

def numbered (draft : Draft) (index : Nat) : Operation where
  index := Int64.ofNat index
  operationType := draft.operationType
  status := draft.status
  account := draft.account
  amount := draft.amount
  metadata? := draft.metadata?

/-- The operations of a transaction, numbered from `start`. -/
def numberFrom : Nat → List Draft → List Operation
  | _, [] => []
  | start, draft :: rest => draft.numbered start :: numberFrom (start + 1) rest

end Draft

end LedgerView
