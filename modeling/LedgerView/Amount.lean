import LedgerView.EntityId
/-!
# Amounts

A signed balance or change of balance, in hbar or in units of one token.
-/

namespace LedgerView

/-- Fungibility class of a token. -/
inductive TokenType where
  | fungibleCommon
  | nonFungibleUnique
  deriving DecidableEq, Repr

def TokenType.label : TokenType → String
  | .fungibleCommon => "FUNGIBLE_COMMON"
  | .nonFungibleUnique => "NON_FUNGIBLE_UNIQUE"

/-- An amount of one token. For a non-fungible token the value counts units, and the serial
numbers that move are listed. -/
structure TokenAmount where
  tokenId : EntityId
  decimals : UInt32
  tokenType : TokenType
  value : Int64
  serialNumbers : List Int64
  deriving DecidableEq, Repr

inductive Amount where
  | hbar (value : Int64)
  | token (amount : TokenAmount)
  deriving DecidableEq, Repr

namespace Amount

def value : Amount → Int64
  | hbar value => value
  | token amount => amount.value

def tokenId? : Amount → Option EntityId
  | hbar _ => none
  | token amount => some amount.tokenId

end Amount

end LedgerView
