import LedgerView.BlockHash
import LedgerView.Checked
import LedgerView.Record
/-!
# Blocks

A block is the view of one record file. The chain of blocks starts at the genesis block, the first
record file that ends after the first balance snapshot; it is its own parent and starts after the
snapshot.
-/

namespace LedgerView

structure Block where
  index : Int64
  hash : String
  parentIndex : Int64
  parentHash : String
  consensusStart : Int64
  consensusEnd : Int64
  deriving DecidableEq, Repr

/-- The two sums behind blocks: the timestamp after the first snapshot, over the record file of the
genesis block, and the index before that of a record file, given the genesis block. -/
structure Arithmetic (ε : Type) where
  after : RecordFile → Int64 → Outcome ε Int64
  before : RecordFile → Block → Outcome ε Int64

/-- The sums that blocks are made with: they end in an overflow where they must. -/
def Arithmetic.checked {ε : Type} : Arithmetic ε where
  after _ snapshot := addChecked snapshot 1
  before file _ := subChecked file.index 1

@[simp] theorem Arithmetic.after_checked {ε : Type} (file : RecordFile) (snapshot : Int64) :
    (checked : Arithmetic ε).after file snapshot = addChecked snapshot 1 := rfl

@[simp] theorem Arithmetic.before_checked {ε : Type} (file : RecordFile) (genesis : Block) :
    (checked : Arithmetic ε).before file genesis = subChecked file.index 1 := rfl

namespace Block

variable {ε : Type}

def isSelfReferential (b : Block) : Bool :=
  b.parentIndex = b.index ∧ b.parentHash = b.hash

/-- The genesis block over the record file that ends first after the first snapshot. If the file
starts at the snapshot or before it, the block starts right after the snapshot, so that nothing
the snapshot holds is counted again. -/
def genesis (file : RecordFile) (firstSnapshot : Int64) (sums : Arithmetic ε := .checked) :
    Outcome ε Block := do
  let consensusStart ←
    if file.consensusStart ≤ firstSnapshot then sums.after file firstSnapshot
    else .ok file.consensusStart
  let hash := BlockHash.marked file.hash
  return {
    index := file.index
    hash
    parentIndex := file.index
    parentHash := hash
    consensusStart
    consensusEnd := file.consensusEnd
  }

/-- The block over a record file, given the genesis block. -/
def ofRecordFile (file : RecordFile) (genesis : Block) (sums : Arithmetic ε := .checked) :
    Outcome ε Block :=
  if file.index = genesis.index then .ok genesis
  else do
    let parentIndex ← sums.before file genesis
    return {
      index := file.index
      hash := BlockHash.marked file.hash
      parentIndex
      parentHash := BlockHash.marked file.prevHash
      consensusStart := file.consensusStart
      consensusEnd := file.consensusEnd
    }

end Block

/-- How a caller names a block. -/
inductive BlockSelector where
  | index (index : Int64)
  | hash (hash : String)
  | indexAndHash (index : Int64) (hash : String)
  | latest
  | genesis
  deriving DecidableEq, Repr

/-- The selector for as much as the caller gives; nothing at all means the latest block. -/
def BlockSelector.ofParts : Option Int64 → Option String → BlockSelector
  | some i, some h => indexAndHash i h
  | some i, none => index i
  | none, some h => hash h
  | none, none => latest

end LedgerView
