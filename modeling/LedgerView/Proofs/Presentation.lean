import Mathlib
import LedgerView.Proofs.Correction
import LedgerView.Proofs.Evaluation
/-!
# Rows as they are presented

A row that is presented leaves out the movements of deleted tokens, unless it dissociated a token,
in which case it shows everything it recorded. Correcting any selection of the stored rows gives
exactly that, as long as no two stored rows have one timestamp: then a correction can only land on
the row it was read from.
-/

namespace LedgerView

/-- No two transactions of the store have one consensus timestamp. -/
def Store.DistinctTimestamps (s : Store) : Prop :=
  s.transactions.items.Pairwise fun a b => a.consensusTimestamp ≠ b.consensusTimestamp

instance (s : Store) : Decidable s.DistinctTimestamps :=
  inferInstanceAs (Decidable (List.Pairwise _ _))

/-- A successful dissociation shows its transfers as recorded, every other row those of tokens
that are not marked deleted. -/
def Store.presented (s : Store) (row : TransactionRow) : TransactionRow :=
  if row.needsCorrection then row else s.liveRow row

/-- The token and serial movements that a row recorded. -/
def TransactionRow.recorded (row : TransactionRow) : TransferCorrection :=
  ⟨row.consensusTimestamp, row.tokenTransfers, row.nftTransfers⟩

section Presentation

variable {s : Store} {rows items : List TransactionRow}

theorem corrected_liveRow_recorded (row : TransactionRow) :
    (s.liveRow row).corrected row.recorded = row := rfl

theorem hash_presented (row : TransactionRow) : (s.presented row).hash = row.hash := by
  unfold Store.presented
  split <;> rfl

theorem result_presented (row : TransactionRow) : (s.presented row).result = row.result := by
  unfold Store.presented
  split <;> rfl

theorem filter_timestamp_mem (hsub : rows.Sublist items)
    (hdistinct : items.Pairwise fun a b => a.consensusTimestamp ≠ b.consensusTimestamp) :
    (items.filter fun row =>
      (rows.map TransactionRow.consensusTimestamp).contains row.consensusTimestamp) = rows := by
  induction hsub with
  | slnil => rfl
  | @cons rows items row hsub ih =>
    obtain ⟨hrow, hitems⟩ := List.pairwise_cons.1 hdistinct
    have habsent : row.consensusTimestamp ∉ rows.map TransactionRow.consensusTimestamp := by
      intro hmem
      obtain ⟨other, hother, heq⟩ := List.mem_map.1 hmem
      exact hrow other (hsub.subset hother) heq.symm
    rw [List.filter_cons_of_neg (by simpa using habsent)]
    exact ih hitems
  | @cons_cons rows items row hsub ih =>
    obtain ⟨hrow, hitems⟩ := List.pairwise_cons.1 hdistinct
    rw [List.filter_cons_of_pos (by simp)]
    have hrest : ∀ other ∈ items,
        ((row :: rows).map TransactionRow.consensusTimestamp).contains other.consensusTimestamp =
          (rows.map TransactionRow.consensusTimestamp).contains other.consensusTimestamp := by
      intro other hother
      have hne := hrow other hother
      simp [Ne.symm hne]
    rw [List.filter_congr hrest, ih hitems]

theorem historicalTransfers_eq (hdistinct : s.DistinctTimestamps)
    (hsub : rows.Sublist s.transactions.items) :
    s.historicalTransfers (rows.map TransactionRow.consensusTimestamp) =
      rows.map TransactionRow.recorded := by
  rw [Store.historicalTransfers, filter_timestamp_mem hsub hdistinct]
  rfl

theorem applyCorrections_liveRow
    (hdistinct : rows.Pairwise fun a b => a.consensusTimestamp ≠ b.consensusTimestamp) :
    applyCorrections (rows.map s.liveRow)
        ((rows.filter TransactionRow.needsCorrection).map TransactionRow.recorded) =
      rows.map s.presented := by
  induction rows with
  | nil => rfl
  | cons row rows ih =>
    obtain ⟨hrow, hrows⟩ := List.pairwise_cons.1 hdistinct
    by_cases hneeds : row.needsCorrection
    · have hsame : (s.liveRow row).consensusTimestamp = row.recorded.consensusTimestamp := rfl
      rw [List.filter_cons_of_pos hneeds, List.map_cons, List.map_cons, applyCorrections,
        if_pos hsame, corrected_liveRow_recorded, ih hrows, List.map_cons, Store.presented,
        if_pos hneeds]
    · rw [List.filter_cons_of_neg hneeds, List.map_cons, applyCorrections_cons_of_ne, ih hrows,
        List.map_cons, Store.presented, if_neg hneeds]
      -- the corrections are those of later rows
      intro c hc
      obtain ⟨other, hother, rfl⟩ := List.mem_map.1 hc
      exact hrow other ((List.mem_filter.1 hother).1)

theorem map_presented_of_live (h : rows.filter TransactionRow.needsCorrection = []) :
    rows.map s.presented = rows.map s.liveRow := by
  apply List.map_congr_left
  intro row hrow
  rw [Store.presented, if_neg (List.filter_eq_nil_iff.1 h row hrow)]

theorem map_timestamp_filter_liveRow (rows : List TransactionRow) :
    ((rows.map s.liveRow).filter TransactionRow.needsCorrection).map
        TransactionRow.consensusTimestamp =
      (rows.filter TransactionRow.needsCorrection).map TransactionRow.consensusTimestamp := by
  rw [List.filter_map, List.map_map]
  rfl

/-- Correcting a selection of the stored rows presents each of them. -/
theorem eval_correct (hdistinct : s.DistinctTimestamps)
    (hsub : rows.Sublist s.transactions.items) (g : Option Block) :
    (Script.correct (rows.map s.liveRow)).eval s g = (.ok (rows.map s.presented), g) := by
  unfold Script.correct
  rw [map_timestamp_filter_liveRow]
  by_cases hnone : rows.filter TransactionRow.needsCorrection = []
  · rw [hnone, map_presented_of_live hnone]
    rfl
  · rw [if_neg (by simpa using hnone)]
    have hcorrections := historicalTransfers_eq hdistinct
      (List.filter_sublist.trans hsub : (rows.filter TransactionRow.needsCorrection).Sublist _)
    rw [← applyCorrections_liveRow (hdistinct.sublist hsub), ← hcorrections]
    rfl

end Presentation

end LedgerView
