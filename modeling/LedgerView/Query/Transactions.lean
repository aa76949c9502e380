import LedgerView.Correction
import LedgerView.Query.Block
/-!
# Transactions

Rows are read page by page, each page is corrected by itself, and the rows of all pages are
assembled together. A full page is followed by another that starts right after its last
timestamp.
-/

namespace LedgerView

/-- The timestamp at which a page ends, if it is full and does not reach the end of the range. -/
def pageEnd? (page : List TransactionRow) (batch : Nat) (stop : Int64) : Option Int64 :=
  match page.getLast? with
  | none => none
  | some last =>
    if batch ≤ page.length ∧ last.consensusTimestamp < stop then some last.consensusTimestamp
    else none

theorem pageEnd?_eq_some {page : List TransactionRow} {batch : Nat} {stop last : Int64}
    (h : pageEnd? page batch stop = some last) :
    batch ≤ page.length ∧ last < stop ∧ ∃ row ∈ page, row.consensusTimestamp = last := by
  unfold pageEnd? at h
  split at h
  · cases h
  · next row hrow =>
    split at h
    · next hif =>
      cases h
      exact ⟨hif.1, hif.2, row, List.mem_of_getLast? hrow, rfl⟩
    · cases h

theorem Store.le_of_mem_transactionsInRange {s : Store} {start stop : Int64} {limit : Nat}
    {row : TransactionRow} (h : row ∈ s.transactionsInRange start stop limit) :
    start ≤ row.consensusTimestamp ∧ row.consensusTimestamp ≤ stop := by
  obtain ⟨stored, hstored, rfl⟩ := List.mem_map.1 h
  have := (List.mem_filter.1 (List.mem_of_mem_take hstored)).2
  simpa [liveRow, Timed.timestamp] using this

namespace Script

/-- Complete the rows that need it from what was recorded. -/
def correct (rows : List TransactionRow) : Script (List TransactionRow) :=
  let timestamps := (rows.filter TransactionRow.needsCorrection).map
    TransactionRow.consensusTimestamp
  if timestamps = [] then pure rows
  else do
    let corrections ←
      ask "historical_token_transfers" fun store => store.historicalTransfers timestamps
    count .transferCorrections (pure (applyCorrections rows corrections))

/-- The rows from `cursor` to `stop` behind those gathered already. -/
def scan (batch : Nat) (stop cursor : Int64) (gathered : List TransactionRow) :
    Script (List TransactionRow) :=
  wait "transactions_in_range" fun store =>
    let page := store.transactionsInRange cursor stop batch
    count .scanBatches
      ((correct page).bind fun corrected =>
        match _hend : pageEnd? page batch stop with
        | none => done (.ok (gathered ++ corrected))
        | some last =>
          match _hnext : addChecked last 1 with
          | .error e => done (.error e)
          | .ok next => scan batch stop next (gathered ++ corrected))
termination_by (stop.toInt - cursor.toInt).toNat
decreasing_by
  obtain ⟨_, hlt, row, hrow, hts⟩ := pageEnd?_eq_some _hend
  have hcursor := (Store.le_of_mem_transactionsInRange hrow).1
  rw [hts, Int64.le_iff_toInt_le] at hcursor
  rw [Int64.lt_iff_toInt_lt] at hlt
  have hnext := addChecked_eq_ok_iff.1 _hnext
  have : (1 : Int64).toInt = 1 := rfl
  omega

/-- One page of a scan, without the bounds that make the scan end. -/
theorem scan_eq (batch : Nat) (stop cursor : Int64) (gathered : List TransactionRow) :
    scan batch stop cursor gathered = wait "transactions_in_range" fun store =>
      let page := store.transactionsInRange cursor stop batch
      count .scanBatches
        ((correct page).bind fun corrected =>
          match pageEnd? page batch stop with
          | none => done (.ok (gathered ++ corrected))
          | some last =>
            match addChecked last 1 with
            | .error e => done (.error e)
            | .ok next => scan batch stop next (gathered ++ corrected)) := by
  rw [scan]
  congr 1
  funext store
  dsimp only
  congr 2
  funext corrected
  split
  · next h => simp [h]
  · next last h =>
    simp only [h]
    split <;> (next h' => simp [h'])

/-- A step that checks a range of time. -/
def checkRange (start stop : Int64) : Script Unit :=
  check (if stop < start then .error (.startAfterEnd start stop) else .ok ())

/-- The transactions of a range, both ends included. -/
def transactions (assembler : Assembler) (batch : Nat) (start stop : Int64) :
    Script (List Transaction) := do
  checkRange start stop
  let rows ← scan batch stop start []
  done (assembler.assemble rows)

/-- The transaction of a hash in a range. -/
def transactionByHash (assembler : Assembler) (hash : String) (start stop : Int64) :
    Script Transaction := do
  let bytes ← check (BlockHash.bytes hash)
  checkRange start stop
  let rows ← ask "transactions_by_hash" fun store => store.transactionsByHash bytes start stop
  if rows = [] then refuse (.notFound (.transaction hash))
  else do
    let rows ← correct rows
    let transactions ← done (assembler.assemble rows)
    done (Outcome.ofOption (.notFound (.transaction hash)) transactions.head?)

end Script

end LedgerView
