import LedgerView.Script
import LedgerView.Store.Read
/-!
# Resolving blocks

The genesis block is resolved once and memoized; an attempt that fails leaves no trace, so a ledger
that is still starting recovers later. Other blocks are looked up by index, by hash, or by both. The
caller's argument is checked before anything else; a record file before the genesis block is no
block.
-/

namespace LedgerView.Script

/-- Find the genesis block in the store and memoize it. -/
def discoverGenesis (sums : Arithmetic LedgerError := .checked) : Script Block := do
  let snapshot ←
    find "earliest_snapshot_timestamp" .nodeIsStarting Store.earliestSnapshot?
  let file ←
    find "first_record_file_ending_after" (.notFound .block) fun store =>
      store.firstRecordFileEndingAfter? snapshot
  let genesis ← done (Block.genesis file snapshot sums)
  memoize genesis (pure genesis)

/-- The genesis block. -/
def genesis (sums : Arithmetic LedgerError := .checked) : Script Block :=
  consult fun genesis? =>
    match genesis? with
    | some genesis => pure genesis
    | none => discoverGenesis sums

/-- A step that checks an argument. -/
def check {α : Type} (result : Except BadArgument α) : Script α :=
  done (Outcome.ofExcept LedgerError.invalidArgument result)

/-- The block over a record file, which must not come before the genesis block. -/
def blockFrom (genesis : Block) (file : RecordFile) (sums : Arithmetic LedgerError := .checked) :
    Script Block :=
  if file.index < genesis.index then refuse (.notFound .block)
  else done (Block.ofRecordFile file genesis sums)

def blockByIndex (index : Int64) (sums : Arithmetic LedgerError := .checked) : Script Block :=
  if index < 0 then refuse (.invalidArgument (.negativeIndex index))
  else do
    let genesis ← genesis sums
    if index < genesis.index then refuse (.notFound .block)
    else do
      let file ←
        find "record_file_by_index" (.notFound .block) fun store => store.recordFileByIndex? index
      done (Block.ofRecordFile file genesis sums)

def blockByHash (hash : String) (sums : Arithmetic LedgerError := .checked) : Script Block := do
  let normal ← check (BlockHash.normalize hash)
  let genesis ← genesis sums
  let file ←
    find "record_file_by_hash" (.notFound .block) fun store => store.recordFileByHash? normal
  blockFrom genesis file sums

/-- The block of an index, provided that it has the given hash. -/
def blockByIndexAndHash (index : Int64) (hash : String)
    (sums : Arithmetic LedgerError := .checked) : Script Block := do
  let normal ← check (BlockHash.normalize hash)
  let block ← blockByIndex index sums
  if BlockHash.dropMarks block.hash.toList = normal.toList then pure block
  else refuse (.notFound .block)

def latestBlock (sums : Arithmetic LedgerError := .checked) : Script Block := do
  let genesis ← genesis sums
  let file ← find "latest_record_file" (.notFound .block) Store.latestRecordFile?
  blockFrom genesis file sums

def block (selector : BlockSelector) (sums : Arithmetic LedgerError := .checked) : Script Block :=
  match selector with
  | .index index => blockByIndex index sums
  | .hash hash => blockByHash hash sums
  | .indexAndHash index hash => blockByIndexAndHash index hash sums
  | .latest => latestBlock sums
  | .genesis => genesis sums

end LedgerView.Script
