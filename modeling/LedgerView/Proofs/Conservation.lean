import Mathlib
import LedgerView.Proofs.Reconciliation.Hbar
/-!
# Conservation of hbar

The fee of an account is what its other operations leave of its raw total, so over the accounts
that a row touches its operations add up to its raw transfers. A row may show more than that:
staking rewards, their debit, and itemized transfers of the reward account are shown whether or not
the row has a raw transfer of their account, and an account without one has no fee to make up for
them. The hbar operations of a transaction whose raw transfers cancel out add up to exactly those
(`hbar_conserved`), which need not be nothing (`hbar_not_conserved`).
-/

namespace LedgerView

/-- The operations on hbar that took effect. -/
def countsAnyHbar : String → EntityId → Amount → Bool :=
  fun status _ amount => amount.tokenId? = none ∧ status ∈ successStatuses

/-- The effective raw transfers of the row cancel out. -/
def TransactionRow.Balanced (row : TransactionRow) : Prop :=
  (row.effectiveTransfers.map fun t => t.amount.toInt).sum = 0

instance (row : TransactionRow) : Decidable row.Balanced :=
  inferInstanceAs (Decidable (_ = _))

namespace Assembler

/-- What a row shows of accounts that it has no effective raw transfer of: itemized transfers, if
it took effect, and staking rewards with their debit. -/
def unbacked (a : Assembler) (row : TransactionRow) : Int :=
  ((((if row.succeeded then a.nonFeeTransfers row else []) ++ row.stakingRewards).filter fun t =>
      ¬row.Touches t.account).map fun t => t.amount.toInt).sum -
    if row.Touches a.rewardAccount then 0
    else (row.stakingRewards.map fun t => t.amount.toInt).sum

/-- The row has an effective raw transfer of every account that it pays rewards to or out of. -/
def BacksRewards (a : Assembler) (row : TransactionRow) : Prop :=
  row.stakingRewards ≠ [] →
    row.Touches a.rewardAccount ∧ ∀ t ∈ row.stakingRewards, row.Touches t.account

instance (a : Assembler) (row : TransactionRow) : Decidable (a.BacksRewards row) :=
  inferInstanceAs (Decidable (_ → _))

variable {a : Assembler} {row : TransactionRow}

theorem sumWhere_toPair (counts : Int64 → Bool) (transfers : List HbarTransfer) :
    Tally.sumWhere counts (transfers.map HbarTransfer.toPair) =
      ((transfers.filter fun t => counts t.account).map fun t => t.amount.toInt).sum := by
  rw [sum_map_filter, Tally.sumWhere, List.map_map]
  rfl

theorem sumWhere_rawPairs (h : row.Balanced) : Tally.sumWhere (fun _ => true) row.rawPairs = 0 := by
  rw [Tally.sumWhere, TransactionRow.rawPairs, List.map_map]
  exact h

theorem sumWhere_explained {ε : Type} {rewards : List HbarTransfer}
    (h : a.rewardTransfers row = (.ok rewards : Outcome ε _)) :
    Tally.sumWhere (fun k => !decide (row.Touches k))
      ((a.explained row rewards).map HbarTransfer.toPair) = a.unbacked row := by
  rw [sumWhere_toPair, explained, unbacked, List.filter_append, List.filter_append,
    List.map_append, List.map_append, List.sum_append, List.sum_append]
  simp only [decide_not]
  rcases rewardTransfers_eq_ok h with ⟨hnone, rfl⟩ | ⟨-, debit, hdebit, rfl⟩
  · simp [hnone]
  · rw [List.filter_append, List.map_append, List.sum_append]
    by_cases htouched : row.Touches a.rewardAccount
    · simp [htouched]
    · simp only [htouched, decide_false, Bool.not_false, List.filter_cons_of_pos, List.filter_nil,
        List.map_cons, List.map_nil, List.sum_cons, List.sum_nil, hdebit, if_false]
      omega

theorem unbacked_eq_zero (h : a.BacksRewards row) : a.unbacked row = 0 := by
  have htouched : ∀ t ∈ (if row.succeeded then a.nonFeeTransfers row else []) ++
      row.stakingRewards, row.Touches t.account := by
    intro t ht
    rcases List.mem_append.1 ht with hitemized | hpaid
    · split at hitemized
      · rcases account_of_nonFeeTransfers hitemized with htouches | ⟨hpayer, hpays⟩
        · exact htouches
        · rw [hpayer]
          exact (h hpays).1
      · cases hitemized
    · exact (h (List.ne_nil_of_mem hpaid)).2 t hpaid
  have hnone : ((if row.succeeded then a.nonFeeTransfers row else []) ++
      row.stakingRewards).filter (fun t => ¬row.Touches t.account) = [] := by
    rw [List.filter_eq_nil_iff]
    intro t ht
    simpa using htouched t ht
  have hdebit : (if row.Touches a.rewardAccount then 0
      else (row.stakingRewards.map fun t => t.amount.toInt).sum) = 0 := by
    by_cases hpays : row.stakingRewards = []
    · simp [hpays]
    · rw [if_pos (h hpays).1]
  rw [unbacked, hnone, hdebit]
  rfl

end Assembler

theorem countsHbarOf_countsAnyHbar : CountsHbarOf countsAnyHbar fun _ => true := by
  constructor
  · intro status owner value
    simp [countsAnyHbar, Amount.tokenId?]
  · intro status owner amount
    simp [countsAnyHbar, Amount.tokenId?]

/-- The hbar operations of a transaction that took effect add up to what its rows show of accounts
without a raw transfer in the row, if the raw transfers of each row cancel out. That is nothing if
every account that a row pays rewards to or out of has a raw transfer in it. -/
theorem hbar_conserved {a : Assembler} {rows : List TransactionRow} {t : Transaction}
    (hcodes : a.codes = .standard) (h : a.build rows = .ok t)
    (hsome : ∃ row ∈ rows, row.succeeded) (hbalanced : ∀ row ∈ rows, row.Balanced) :
    totalValue countsAnyHbar [t] = (rows.map a.unbacked).sum ∧
      ((∀ row ∈ rows, a.BacksRewards row) → totalValue countsAnyHbar [t] = 0) := by
  have hrow : ∀ row ∈ rows, ∀ drafts, a.rowDrafts row = .ok drafts →
      (drafts.map (Draft.measured (valueWhere countsAnyHbar))).sum = a.unbacked row := by
    intro row hmem drafts hdrafts
    obtain ⟨rewards, hpaid, hsum⟩ := value_of_rowDrafts hcodes countsHbarOf_countsAnyHbar hdrafts
    simp only [Bool.true_and] at hsum
    rw [hsum, Assembler.sumWhere_rawPairs (hbalanced row hmem),
      Assembler.sumWhere_explained hpaid, Int.zero_add]
  have htotal : totalValue countsAnyHbar [t] = (rows.map a.unbacked).sum := by
    rw [totalValue_eq, List.map_singleton, List.sum_singleton]
    exact Assembler.measured_build h hsome hrow
  refine ⟨htotal, fun hbacked => ?_⟩
  have hzero : ∀ row ∈ rows, a.unbacked row = 0 := by
    intro row hmem
    exact Assembler.unbacked_eq_zero (hbacked row hmem)
  rw [htotal, List.map_congr_left hzero]
  simp

/-- The fee of 30 that account 1001 pays is just made up by its staking reward, so that it has no
raw transfer. -/
private def rewardedRow : TransactionRow :=
  { consensusTimestamp := 10, hash := [1], transactionType := 14, result := 22, payer := 1001,
    entity? := none, memo := [], cryptoTransfers := [⟨800, -30, none⟩, ⟨98, 30, none⟩],
    itemizedTransfers := [], tokenTransfers := [], nftTransfers := [],
    stakingRewards := [⟨1001, 30⟩], token? := none }

private def rewardedTransaction : Transaction :=
  { hash := "0x01", entityId? := none, memo := [],
    operations := [
      ⟨0, "FEE", "SUCCESS", .numbered 98, .hbar 30, none⟩,
      ⟨1, "CRYPTOTRANSFER", "SUCCESS", .numbered 1001, .hbar 30, none⟩,
      ⟨2, "CRYPTOTRANSFER", "SUCCESS", .numbered 800, .hbar (-30), none⟩] }

/-- The reward is shown, and the fee that it makes up for is not. -/
theorem hbar_not_conserved :
    Assembler.build ⟨.standard, 800⟩ [rewardedRow] = .ok rewardedTransaction ∧
      rewardedRow.succeeded ∧ rewardedRow.Balanced ∧
        totalValue countsAnyHbar [rewardedTransaction] = 30 := by
  refine ⟨by decide +kernel, by decide, by decide, by decide +kernel⟩

/-- An attempt that fails and costs 2, and one that succeeds and pays a reward to an account that
it touches. -/
private def backedRows : List TransactionRow := [
  { rewardedRow with
    result := 10, cryptoTransfers := [⟨1001, -2, none⟩, ⟨98, 2, none⟩],
    itemizedTransfers := [⟨1001, -1⟩], stakingRewards := [] },
  { rewardedRow with
    cryptoTransfers := [⟨1001, 19, none⟩, ⟨98, 1, none⟩, ⟨1002, 10, none⟩, ⟨800, -30, none⟩],
    itemizedTransfers := [⟨1001, -10⟩, ⟨1002, 10⟩] }]

private def builtValue (rows : List TransactionRow) : Outcome LedgerError Int :=
  (fun t => totalValue countsAnyHbar [t]) <$> Assembler.build ⟨.standard, 800⟩ rows

theorem hbar_conserved_backed :
    builtValue backedRows = .ok 0 ∧
      totalValue countsAnyHbar [rewardedTransaction] =
        ([rewardedRow].map (Assembler.unbacked ⟨.standard, 800⟩)).sum := by
  have hrewarded : Assembler.build ⟨.standard, 800⟩ [rewardedRow] = .ok rewardedTransaction := by
    decide +kernel
  refine ⟨?_, (hbar_conserved rfl hrewarded (by decide) (by decide)).1⟩
  rcases hbuilt : Assembler.build ⟨.standard, 800⟩ backedRows with e | t
  · have hfine : (Assembler.build ⟨.standard, 800⟩ backedRows).isOk = true := by decide +kernel
    rw [hbuilt] at hfine
    cases hfine
  · have hzero := (hbar_conserved rfl hbuilt (by decide) (by decide)).2 (by decide)
    rw [builtValue, hbuilt]
    exact congrArg Except.ok hzero

end LedgerView
