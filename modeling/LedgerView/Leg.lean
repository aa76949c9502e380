import LedgerView.Record
/-!
# Legs

A leg is one account's side of a movement. The token of a leg is still a packed word, so its
amount may turn out to have no token id.
-/

namespace LedgerView

/-- What moves. -/
inductive Movement where
  | hbar (value : Int64)
  | token (column : Int64) (decimals : UInt32) (tokenType : TokenType) (value : Int64)
      (serialNumbers : List Int64)
  deriving DecidableEq, Repr

def Movement.amount : Movement → Except EntityIdError Amount
  | .hbar value => .ok (.hbar value)
  | .token column decimals tokenType value serialNumbers => do
    let tokenId ← EntityId.decode column
    return .token { tokenId, decimals, tokenType, value, serialNumbers }

structure Leg where
  account : Int64
  movement : Movement
  deriving DecidableEq, Repr

def CryptoTransfer.leg (t : CryptoTransfer) : Leg :=
  ⟨t.account, .hbar t.amount⟩

def HbarTransfer.leg (t : HbarTransfer) : Leg :=
  ⟨t.account, .hbar t.amount⟩

def TokenTransfer.leg (t : TokenTransfer) : Leg :=
  ⟨t.account, .token t.token t.decimals t.tokenType t.amount []⟩

/-- One side of the movement of one serial. -/
structure NftLeg where
  account : Int64
  token : Int64
  serialNumber : Int64
  /-- One serial more or one less. -/
  received : Bool
  deriving DecidableEq, Repr

namespace NftLeg

/-- The change in the number of serials held. -/
def delta (l : NftLeg) : Int64 :=
  if l.received then 1 else -1

def leg (l : NftLeg) : Leg :=
  ⟨l.account, .token l.token 0 .nonFungibleUnique l.delta [l.serialNumber]⟩

end NftLeg

/-- The sender's debit first, then the receiver's credit, as far as there is a sender and a
receiver. -/
def NftTransfer.legs (t : NftTransfer) : List NftLeg :=
  (t.sender?.toList.map fun account => ⟨account, t.token, t.serialNumber, false⟩) ++
    t.receiver?.toList.map fun account => ⟨account, t.token, t.serialNumber, true⟩

end LedgerView
