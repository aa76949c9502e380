import Mathlib
import LedgerView.Proofs.Balance
import LedgerView.Proofs.Balance.Window
import LedgerView.Proofs.Operations
import LedgerView.Proofs.Scan
/-!
# Balances against operations

The balances at two times and the transactions in between are worked out from the same rows, but
along different ways. What the operations of single rows come to, the operations of all
transactions come to (`totalValue_of_transactions`), while balances that are worked out from
consistent snapshots differ by what the rows in between move (`moved_between`).
-/

namespace LedgerView

/-! ## Rows as they are presented -/

section Presented

variable {s : Store}

theorem someTookEffect_map_presented {rows : List TransactionRow} (h : SomeTookEffect rows) :
    SomeTookEffect (rows.map s.presented) := by
  intro row hrow
  obtain ⟨stored, hstored, rfl⟩ := List.mem_map.1 hrow
  obtain ⟨other, hother, hhash, hsucceeded⟩ := h stored hstored
  refine ⟨s.presented other, List.mem_map_of_mem hother, ?_, ?_⟩
  · rw [hash_presented, hash_presented, hhash]
  · rw [TransactionRow.succeeded, result_presented]
    exact hsucceeded

end Presented

/-! ## Operations of a range -/

section Transactions

variable {s : Store} {settings : Settings} {t₁ t₂ : Int64}

theorem toInt_succ_of_lt (hlt : t₁ < t₂) : (t₁ + 1).toInt = t₁.toInt + 1 := by
  obtain ⟨next, hnext⟩ := exists_addChecked_one hlt
  have hone : (1 : Int64).toInt = 1 := rfl
  have hsum : next.toInt = t₁.toInt + 1 := addChecked_eq_ok_iff.1 hnext
  rw [Int64.toInt_add, hone, ← hsum]
  exact Int64.toInt_bmod next

theorem between_succ (hlt : t₁ < t₂) :
    s.transactions.between (t₁ + 1) t₂ = s.transactions.after t₁ t₂ := by
  rw [Timeline.between, Timeline.after]
  apply List.filter_congr
  intro row _
  simp only [Int64.le_iff_toInt_le, Int64.lt_iff_toInt_lt, toInt_succ_of_lt hlt]
  rfl

theorem batch_pos (hvalid : settings.config.validate = .ok ()) : 0 < settings.batch := by
  unfold LedgerConfig.validate at hvalid
  split at hvalid
  · cases hvalid
  · next hne =>
    have hnat : settings.config.batchSize.toNat ≠ 0 := by
      intro hzero
      exact hne (UInt64.toNat_inj.1 hzero)
    exact Nat.pos_of_ne_zero hnat

theorem assemble_of_transactions {transactions : List Transaction}
    (hvalid : settings.config.validate = .ok ()) (hdistinct : s.DistinctTimestamps)
    (hlt : t₁ < t₂)
    (h : s.Answers settings (.transactions (t₁ + 1) t₂) (.transactions transactions)) :
    settings.assembler.assemble ((s.transactions.after t₁ t₂).map s.presented) =
      .ok transactions := by
  have hrange : t₁ + 1 ≤ t₂ := by
    rw [Int64.le_iff_toInt_le, toInt_succ_of_lt hlt]
    exact Int64.lt_iff_toInt_lt.1 hlt
  rw [← between_succ hlt]
  exact assemble_of_answers (batch_pos hvalid) hdistinct hrange h

/-- What the operations of each row come to, as the row is presented, the operations of the whole
range come to. -/
theorem totalValue_of_transactions {counts : String → EntityId → Amount → Bool}
    {f : TransactionRow → Int} {transactions : List Transaction}
    (hvalid : settings.config.validate = .ok ()) (hdistinct : s.DistinctTimestamps)
    (hlt : t₁ < t₂) (hsome : SomeTookEffect (s.transactions.after t₁ t₂))
    (h : s.Answers settings (.transactions (t₁ + 1) t₂) (.transactions transactions))
    (hpresented : ∀ row ∈ s.transactions.after t₁ t₂, f (s.presented row) = f row)
    (hrows : ∀ row ∈ s.transactions.after t₁ t₂, ∀ drafts,
      settings.assembler.rowDrafts (s.presented row) = .ok drafts →
        (drafts.map (Draft.measured (valueWhere counts))).sum = f (s.presented row)) :
    totalValue counts transactions = s.moved f t₁ t₂ := by
  have hassemble := assemble_of_transactions hvalid hdistinct hlt h
  have hmeasured : (transactions.map (Transaction.measured (valueWhere counts))).sum =
      (((s.transactions.after t₁ t₂).map s.presented).map f).sum := by
    apply Assembler.measured_assemble hassemble (someTookEffect_map_presented hsome)
    intro row hrow drafts hdrafts
    obtain ⟨stored, hstored, rfl⟩ := List.mem_map.1 hrow
    exact hrows stored hstored drafts hdrafts
  have hsame : ((s.transactions.after t₁ t₂).map s.presented).map f =
      (s.transactions.after t₁ t₂).map f := by
    rw [List.map_map]
    exact List.map_congr_left hpresented
  rw [totalValue_eq, hmeasured, hsame, Store.moved]

end Transactions

end LedgerView
