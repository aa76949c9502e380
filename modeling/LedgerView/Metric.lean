import LedgerView.Error
/-!
# Metrics

What is counted, and how often. A metric that was never counted has no entry. A request closes its
store scope before it answers, so the gauge of open scopes never shows a change and has no entry
either.
-/

namespace LedgerView

/-- The queries by name. -/
inductive QueryName where
  | resolveBlock
  | getBalance
  | getBalanceAtBlock
  | getTransactionsInRange
  | getTransactionByHash
  | getBlockTransactions
  | addressBook
  deriving DecidableEq, Repr

def QueryName.label : QueryName → String
  | .resolveBlock => "resolve_block"
  | .getBalance => "get_balance"
  | .getBalanceAtBlock => "get_balance_at_block"
  | .getTransactionsInRange => "get_transactions_in_range"
  | .getTransactionByHash => "get_transaction_by_hash"
  | .getBlockTransactions => "get_block_transactions"
  | .addressBook => "address_book"

inductive Metric where
  | scanBatches
  | transferCorrections
  | storeTimeouts
  | answered (query : QueryName)
  | refused (query : QueryName)
  | errors (query : QueryName) (kind : ErrorKind)
  | durations (query : QueryName)
  deriving DecidableEq, Repr

def Metric.name : Metric → String
  | .scanBatches => "scan_batches"
  | .transferCorrections => "transfer_corrections"
  | .storeTimeouts => "store_timeouts"
  | .answered query => "queries." ++ query.label ++ ".ok"
  | .refused query => "queries." ++ query.label ++ ".error"
  | .errors query kind => "errors." ++ query.label ++ "." ++ kind.label
  | .durations query => "durations." ++ query.label

/-- Counts, in the order in which the metrics were first counted. -/
abbrev Metrics := List (Metric × Nat)

namespace Metrics

def bump (metric : Metric) : Metrics → Metrics
  | [] => [(metric, 1)]
  | (m, n) :: rest => if m = metric then (m, n + 1) :: rest else (m, n) :: bump metric rest

def count (metrics : Metrics) (metric : Metric) : Nat :=
  match metrics with
  | [] => 0
  | (m, n) :: rest => if m = metric then n else count rest metric

theorem count_bump (metrics : Metrics) (metric other : Metric) :
    (bump metric metrics).count other =
      metrics.count other + if metric = other then 1 else 0 := by
  induction metrics with
  | nil => simp [bump, count]
  | cons head rest ih =>
    unfold bump
    split
    · next h =>
      subst h
      simp only [count]
      split <;> simp
    · next h =>
      simp only [count, ih]
      split
      · next h' =>
        subst h'
        simp [Ne.symm h]
      · rfl

end Metrics

end LedgerView
