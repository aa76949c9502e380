import Mathlib
import LedgerView.Proofs.Presentation
import LedgerView.Proofs.Timeline.StableOrder
/-!
# The order of transactions

However the records of transactions came in, and whatever else was recorded between them, the store
has them in a stable order. It keeps this order when the next one comes in, and every read of
transactions goes by it: each row that is asked for is read once, at its time
(`transactions_sort_stably`).
-/

namespace LedgerView

open Timeline (IsStableSort IsPartitionPoint partitionPoint notLater)

/-- The transaction that a record adds. -/
def Ingestion.row? : Ingestion → Option TransactionRow
  | .transaction row => some row
  | _ => none

/-- The store has the transactions that were added, and reads them, in a stable order. -/
structure Store.SortsStably (s : Store) (added : List TransactionRow) : Prop where
  table : IsStableSort added s.transactions.items
  /-- The next row finds the table in two parts, and goes between them. -/
  placed : ∀ row, ∃ point, IsPartitionPoint (notLater row) s.transactions.items point ∧
    partitionPoint (notLater row) s.transactions.items = point ∧
      (s.ingest (.transaction row)).transactions.items =
        s.transactions.items.insertIdx point row
  range : ∀ start stop limit, InOrder (s.transactionsInRange start stop limit) ∧
    ∃ rows, IsStableSort (added.filter fun row =>
        start ≤ row.consensusTimestamp ∧ row.consensusTimestamp ≤ stop) rows ∧
      s.transactionsInRange start stop limit = (rows.take limit).map s.liveRow
  byHash : ∀ hash start stop, InOrder (s.transactionsByHash hash start stop) ∧
    ∃ rows, IsStableSort (added.filter fun row => row.hash = hash ∧
        start ≤ row.consensusTimestamp ∧ row.consensusTimestamp ≤ stop) rows ∧
      s.transactionsByHash hash start stop = rows.map s.liveRow
  /-- The movements of an account come row by row. -/
  ofAccount : ∀ account after upTo, ∃ rows,
    IsStableSort (added.filter fun row =>
        after < row.consensusTimestamp ∧ row.consensusTimestamp ≤ upTo) rows ∧
      s.cryptoTransfers account after upTo = rows.flatMap (fun row =>
        row.cryptoTransfers.filter fun t => t.account = account) ∧
      s.tokenTransfers account after upTo = rows.flatMap (fun row =>
        row.tokenTransfers.filter fun t => t.account = account) ∧
      s.nftTransfers account after upTo = rows.flatMap fun row =>
        row.nftTransfers.filter fun t => t.sender? = some account ∨ t.receiver? = some account
  historical : ∀ timestamps,
    ((s.historicalTransfers timestamps).Pairwise fun a b =>
        a.consensusTimestamp ≤ b.consensusTimestamp) ∧
      ∃ rows, IsStableSort (added.filter fun row =>
          timestamps.contains row.consensusTimestamp) rows ∧
        s.historicalTransfers timestamps = rows.map TransactionRow.recorded

section Order

variable {s : Store} {added : List TransactionRow}

theorem transactions_ingest (s : Store) (record : Ingestion) :
    (s.ingest record).transactions = record.row?.toList.foldl Timeline.insert s.transactions := by
  cases record with
  | deleteToken token =>
    rw [Store.ingest, Store.deleteToken_eq]
    rfl
  | _ => rfl

theorem transactions_ingestAll (s : Store) (records : List Ingestion) :
    (s.ingestAll records).transactions =
      (records.filterMap Ingestion.row?).foldl Timeline.insert s.transactions :=
  Timeline.foldl_of_step Store.transactions transactions_ingest s records

theorem inOrder_map_liveRow {rows : List TransactionRow} (h : InOrder rows) :
    InOrder (rows.map s.liveRow) :=
  Timeline.inOrder_map (fun _ => rfl) h

theorem sortsStably_of_isStableSort (h : IsStableSort added s.transactions.items) :
    s.SortsStably added where
  table := h
  placed row := by
    have hpoint := Timeline.isPartitionPoint_partitionPoint h.inOrder row
    exact ⟨_, hpoint, rfl, Timeline.place_eq_insertIdx hpoint⟩
  range start stop limit := by
    have hrange := h.filter fun row =>
      start ≤ row.consensusTimestamp ∧ row.consensusTimestamp ≤ stop
    exact ⟨inOrder_map_liveRow (hrange.inOrder.sublist (List.take_sublist _ _)), _, hrange, rfl⟩
  byHash hash start stop := by
    have hrange := h.filter fun row => row.hash = hash ∧
      start ≤ row.consensusTimestamp ∧ row.consensusTimestamp ≤ stop
    have hrows : s.transactionsByHash hash start stop = (s.transactions.items.filter fun row =>
        row.hash = hash ∧ start ≤ row.consensusTimestamp ∧
          row.consensusTimestamp ≤ stop).map s.liveRow := by
      rw [Store.transactionsByHash, Timeline.between, List.filter_filter]
      simp only [Bool.decide_and]
      rfl
    exact ⟨hrows ▸ inOrder_map_liveRow hrange.inOrder, _, hrange, hrows⟩
  ofAccount account after upTo := by
    refine ⟨_, h.filter fun row => after < row.consensusTimestamp ∧
      row.consensusTimestamp ≤ upTo, ?_, ?_, ?_⟩
    · exact List.filter_flatMap
    · exact List.filter_flatMap
    · exact List.filter_flatMap
  historical timestamps := by
    have hrows := h.filter fun row => timestamps.contains row.consensusTimestamp
    exact ⟨List.pairwise_map.2 hrows.inOrder, _, hrows, rfl⟩

end Order

/-- After any records the store has, and reads, the transactions among them in a stable order. -/
theorem transactions_sort_stably (records : List Ingestion) :
    (Store.ingestAll {} records).SortsStably (records.filterMap Ingestion.row?) := by
  apply sortsStably_of_isStableSort
  rw [transactions_ingestAll]
  exact Timeline.isStableSort_foldl_insert ∅ (records.filterMap Ingestion.row?)

end LedgerView
