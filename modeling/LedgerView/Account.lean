import LedgerView.Amount
import LedgerView.Text.Hex
/-!
# Accounts and their balances

An account is known by its entity id, by an alias, or by both.
-/

namespace LedgerView

structure AccountId where
  entityId? : Option EntityId
  alias? : Option Bytes
  deriving DecidableEq, Repr

namespace AccountId

/-- The id if it is known, else the alias. -/
def text : AccountId → String
  | ⟨some id, _⟩ => id.text
  | ⟨none, some bytes⟩ => Text.prefixedHex bytes
  | ⟨none, none⟩ => "<unknown>"

/-- Only the alias is known, so a directory look-up is due. -/
def isAliasOnly (account : AccountId) : Bool :=
  account.entityId?.isNone && account.alias?.isSome

end AccountId

/-- The balances of one account at one time: hbar first, then tokens by token id. -/
structure AccountBalance where
  account : String
  alias? : Option String
  amounts : List Amount
  deriving DecidableEq, Repr

/-- Balances labelled by what is known of the account. -/
def AccountBalance.of (account : AccountId) (amounts : List Amount) : AccountBalance where
  account := account.text
  alias? := account.alias?.map Text.prefixedHex
  amounts

end LedgerView
