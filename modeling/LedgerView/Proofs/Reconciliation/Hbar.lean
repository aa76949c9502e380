import Mathlib
import LedgerView.Proofs.Reconciliation
import LedgerView.Proofs.Tally
/-!
# Hbar balances against operations

An account's hbar moves by its effective raw transfers. Its operations show the same movements in
three parts: what was itemized, the staking rewards, and as a fee whatever these two leave of the
raw total. So the parts add up to the raw total whatever they are, as long as the account has a
raw total at all (`hbar_of_rowDrafts`).
-/

namespace LedgerView

/-- The statuses of operations that took effect. -/
def successStatuses : List String :=
  ["SUCCESS", "FEE_SCHEDULE_FILE_PART_UPLOADED", "SUCCESS_BUT_MISSING_EXPECTED_OPERATION"]

/-- The operations on an account's hbar that took effect. -/
def countsHbar (account : EntityId) : String → EntityId → Amount → Bool :=
  fun status owner amount =>
    owner = account ∧ amount.tokenId? = none ∧ status ∈ successStatuses

/-- The row has an effective raw transfer of the account. -/
def TransactionRow.Touches (row : TransactionRow) (account : Int64) : Prop :=
  ∃ t ∈ row.effectiveTransfers, t.account = account

instance (row : TransactionRow) (account : Int64) : Decidable (row.Touches account) :=
  inferInstanceAs (Decidable (∃ t ∈ row.effectiveTransfers, t.account = account))

/-- If the row pays a staking reward to the account or out of it, it touches the account. -/
def TransactionRow.RewardsTouch (row : TransactionRow) (rewardAccount account : Int64) : Prop :=
  (∃ t ∈ row.stakingRewards, t.account = account) ∨
    (account = rewardAccount ∧ row.stakingRewards ≠ []) → row.Touches account

instance (row : TransactionRow) (rewardAccount account : Int64) :
    Decidable (row.RewardsTouch rewardAccount account) :=
  inferInstanceAs (Decidable (_ → _))

/-- The row shows the itemized transfers of the account: it touches the account, or pays a staking
reward out of it. -/
def Assembler.Keeps (a : Assembler) (row : TransactionRow) (account : Int64) : Prop :=
  row.Touches account ∨ account = a.rewardAccount ∧ row.stakingRewards ≠ []

instance (a : Assembler) (row : TransactionRow) (account : Int64) :
    Decidable (a.Keeps row account) :=
  inferInstanceAs (Decidable (_ ∨ _))

/-! ## Statuses -/

theorem mem_of_lastName? {code : Int32} {name : String} {entries : List (Int32 × String)}
    (h : lastName? code entries = some name) : (code, name) ∈ entries := by
  induction entries with
  | nil => cases h
  | cons entry rest ih =>
    unfold lastName? at h
    split at h
    · next later hlater =>
      cases h
      exact List.mem_cons_of_mem _ (ih hlater)
    · split at h
      · next heq =>
        cases h
        rw [← heq]
        exact List.mem_cons_self
      · cases h

theorem result_mem_successStatuses (result : Int32) :
    CodeBook.standard.result result ∈ successStatuses ↔ CodeBook.isSuccess result := by
  constructor
  · intro h
    cases hname : lastName? result CodeBook.standard.results with
    | none =>
      rw [CodeBook.result, hname] at h
      exact absurd h (by decide)
    | some name =>
      rw [CodeBook.result, hname] at h
      have hentries : ∀ entry ∈ CodeBook.standard.results,
          entry.2 ∈ successStatuses → CodeBook.isSuccess entry.1 := by decide
      exact hentries (result, name) (mem_of_lastName? hname) h
  · intro h
    simp only [CodeBook.isSuccess, Bool.or_eq_true, decide_eq_true_eq] at h
    obtain (rfl | rfl) | rfl := h <;> decide

/-! ## Fees -/

/-- The effective raw transfers of a row, as they are tallied. -/
def TransactionRow.rawPairs (row : TransactionRow) : List (Int64 × Int64) :=
  row.effectiveTransfers.map fun t => (t.account, t.amount)

/-- The transfers that the fees of a row leave out: staking rewards with their debit, and itemized
transfers if the row took effect. -/
def Assembler.explained (a : Assembler) (row : TransactionRow) (rewards : List HbarTransfer) :
    List HbarTransfer :=
  (if row.succeeded then a.nonFeeTransfers row else []) ++ rewards

section Row

variable {row : TransactionRow} {account : Int64}

theorem hbarMoved_eq_sumOf (account : Int64) (row : TransactionRow) :
    row.hbarMoved account = Tally.sumOf account row.rawPairs := by
  rw [TransactionRow.hbarMoved, sum_map_filter, Tally.sumOf, TransactionRow.rawPairs, List.map_map]
  simp only [decide_eq_true_eq]
  rfl

/-- The fees are what the explained transfers leave of the raw totals. An account without raw
transfers has no fee, whatever else the row shows of it. -/
theorem sumWhere_fees {ε : Type} {explained fees : List HbarTransfer}
    (h : row.fees explained = (.ok fees : Outcome ε _)) (counts : Int64 → Bool) :
    Tally.sumWhere counts (fees.map HbarTransfer.toPair) = Tally.sumWhere counts row.rawPairs -
      Tally.sumWhere (fun k => counts k && decide (row.Touches k))
        (explained.map HbarTransfer.toPair) := by
  simp only [TransactionRow.fees, bind_eq_ok, pure_eq_ok] at h
  obtain ⟨raw, hraw, left, hleft, rfl⟩ := h
  have hpairs : (left.remainders.map HbarTransfer.ofPair).map HbarTransfer.toPair =
      left.remainders := by
    rw [List.map_map]
    exact List.map_id _
  have htouches : ∀ k, k ∈ raw.keys ↔ row.Touches k := by
    intro k
    rw [Tally.keys_addAll hraw]
    simp [TransactionRow.Touches]
  obtain ⟨-, hsums⟩ := Tally.takeAwayAll_spec hleft
  have hadded := Tally.sumWhere_addAll hraw counts
  rw [Tally.sumWhere_nil, Int.zero_add] at hadded
  rw [hpairs, Tally.sumWhere_remainders, hsums counts, hadded]
  simp only [htouches]
  rfl

/-! ## What is shown of an account that a row does not touch -/

theorem nonFeeTransfers_eq (a : Assembler) (row : TransactionRow) :
    a.nonFeeTransfers row = row.itemizedTransfers.filter fun t => a.Keeps row t.account := by
  unfold Assembler.nonFeeTransfers
  refine List.filter_congr fun t _ => ?_
  rw [Bool.eq_iff_iff, decide_eq_true_iff]
  simp only [Assembler.Keeps, TransactionRow.Touches, Bool.or_eq_true, Bool.and_eq_true,
    Bool.not_eq_true', List.isEmpty_eq_false_iff, decide_eq_true_eq, List.any_eq_true]
  constructor
  · rintro (⟨hpays, hpayer⟩ | htouches)
    · exact .inr ⟨hpayer, hpays⟩
    · exact .inl htouches
  · rintro (htouches | ⟨hpayer, hpays⟩)
    · exact .inr htouches
    · exact .inl ⟨hpays, hpayer⟩

theorem account_of_nonFeeTransfers {a : Assembler} {t : HbarTransfer}
    (ht : t ∈ a.nonFeeTransfers row) : a.Keeps row t.account := by
  rw [nonFeeTransfers_eq] at ht
  exact of_decide_eq_true (List.mem_filter.1 ht).2

theorem rewardTransfers_eq_ok {ε : Type} {a : Assembler} {rewards : List HbarTransfer}
    (h : a.rewardTransfers row = (.ok rewards : Outcome ε _)) :
    row.stakingRewards = [] ∧ rewards = [] ∨
      row.stakingRewards ≠ [] ∧ ∃ debit : Int64,
        debit.toInt = -((row.stakingRewards.map fun t => t.amount.toInt).sum) ∧
          rewards = row.stakingRewards ++ [⟨a.rewardAccount, debit⟩] := by
  unfold Assembler.rewardTransfers at h
  split at h
  · next hnone =>
    rw [pure_eq_ok] at h
    exact .inl ⟨List.isEmpty_iff.1 hnone, h.symm⟩
  · next hpays =>
    simp only [bind_eq_ok, pure_eq_ok] at h
    obtain ⟨total, htotal, debit, hdebit, rfl⟩ := h
    refine .inr ⟨by simpa using hpays, debit, ?_, rfl⟩
    rw [negChecked_eq_ok_iff.1 hdebit, toInt_of_sumChecked htotal, List.map_map]
    rfl

theorem account_of_explained {ε : Type} {a : Assembler} {rewards : List HbarTransfer}
    (h : a.rewardTransfers row = (.ok rewards : Outcome ε _)) {t : HbarTransfer}
    (ht : t ∈ a.explained row rewards) :
    row.Touches t.account ∨ (∃ reward ∈ row.stakingRewards, reward.account = t.account) ∨
      (t.account = a.rewardAccount ∧ row.stakingRewards ≠ []) := by
  rcases List.mem_append.1 ht with hitemized | hreward
  · split at hitemized
    · exact (account_of_nonFeeTransfers hitemized).imp_right Or.inr
    · cases hitemized
  · rcases rewardTransfers_eq_ok h with ⟨-, rfl⟩ | ⟨hpays, debit, -, rfl⟩
    · cases hreward
    · rcases List.mem_append.1 hreward with hpaid | hdebit
      · exact .inr (.inl ⟨t, hpaid, rfl⟩)
      · rw [List.mem_singleton.1 hdebit]
        exact .inr (.inr ⟨rfl, hpays⟩)

end Row

/-! ## Operations -/

/-- The operations that count are those that took effect on the hbar of some accounts. -/
structure CountsHbarOf (counts : String → EntityId → Amount → Bool) (accounts : Int64 → Bool) :
    Prop where
  hbar : ∀ status owner value,
    counts status owner (.hbar value) = (accounts owner.encode && decide (status ∈ successStatuses))
  token : ∀ status owner amount, counts status owner (.token amount) = false

section Operations

variable {id : EntityId} {counts : String → EntityId → Amount → Bool} {accounts : Int64 → Bool}

theorem countsHbarOf_countsHbar : CountsHbarOf (countsHbar id) fun k => k = id.encode := by
  constructor
  · intro status owner value
    simp [countsHbar, Amount.tokenId?, encode_inj]
  · intro status owner amount
    simp [countsHbar, Amount.tokenId?]

theorem value_of_hbarDrafts {operationType status : String} {transfers : List HbarTransfer}
    {drafts : List Draft} (hcounts : CountsHbarOf counts accounts)
    (h : (transfers.mapM fun t => Draft.ofLeg operationType status t.leg) = .ok drafts) :
    (drafts.map (Draft.measured (valueWhere counts))).sum =
      if status ∈ successStatuses then
        Tally.sumWhere accounts (transfers.map HbarTransfer.toPair)
      else 0 := by
  have hleg : ∀ t ∈ transfers, ∀ d, Draft.ofLeg operationType status t.leg = .ok d →
      d.measured (valueWhere counts) =
        if status ∈ successStatuses then
          if accounts t.account then t.amount.toInt else 0
        else 0 := by
    intro t _ d hd
    obtain ⟨haccount, -, hstatus, -⟩ := ofLeg_eq_ok hd
    have hvalue : d.amount = .hbar t.amount := amount_of_hbarLeg hd
    have hsame : t.account = d.account.encode := haccount
    rw [Draft.measured, valueWhere, hvalue, hcounts.hbar, hstatus, ← hsame]
    by_cases hsuccess : status ∈ successStatuses
    · simp [hsuccess, Amount.value]
    · simp [hsuccess]
  rw [sum_map_of_mapM h hleg]
  by_cases hsuccess : status ∈ successStatuses
  · simp only [if_pos hsuccess, Tally.sumWhere, List.map_map]
    rfl
  · simp [if_neg hsuccess]

theorem value_of_tokenDrafts {drafts : List Draft} (hcounts : CountsHbarOf counts accounts)
    (h : ∀ d ∈ drafts, ∃ amount, d.amount = .token amount) :
    (drafts.map (Draft.measured (valueWhere counts))).sum = 0 := by
  apply sum_measured_eq_zero
  intro d hd
  obtain ⟨amount, hamount⟩ := h d hd
  rw [Draft.measured, valueWhere, hamount, hcounts.token]
  rfl

/-- The operations of a row add up to its raw transfers and what it shows of accounts that it does
not touch: of every other account, the fee takes the explained transfers off the raw total. -/
theorem value_of_rowDrafts {a : Assembler} {row : TransactionRow} {drafts : List Draft}
    (hcodes : a.codes = .standard) (hcounts : CountsHbarOf counts accounts)
    (h : a.rowDrafts row = .ok drafts) :
    ∃ rewards, (a.rewardTransfers row : Outcome LedgerError _) = .ok rewards ∧
      (drafts.map (Draft.measured (valueWhere counts))).sum =
        Tally.sumWhere accounts row.rawPairs +
          Tally.sumWhere (fun k => accounts k && !decide (row.Touches k))
            ((a.explained row rewards).map HbarTransfer.toPair) := by
  obtain ⟨itemized, rewards, fees, feeDrafts, rewardDrafts, tokens, serials, definition,
    hitemized, hpaid, hfees, hfeeDrafts, hrewardDrafts, htokens, hserials, hdefinition, rfl⟩ :=
    Assembler.rowDrafts_eq_ok h
  have htokenZero : (tokens.map (Draft.measured (valueWhere counts))).sum = 0 := by
    refine value_of_tokenDrafts hcounts (forall_mem_of_mapM htokens fun t _ d hd => ?_)
    obtain ⟨tokenId, -, hamount⟩ := amount_of_tokenLeg hd
    exact ⟨_, hamount⟩
  have hserialZero : (serials.map (Draft.measured (valueWhere counts))).sum = 0 := by
    refine value_of_tokenDrafts hcounts (forall_mem_of_mapM hserials fun l _ d hd => ?_)
    obtain ⟨tokenId, -, hamount⟩ := amount_of_tokenLeg hd
    exact ⟨_, hamount⟩
  have hdefinitionZero : (definition.map (Draft.measured (valueWhere counts))).sum = 0 := by
    apply value_of_tokenDrafts hcounts
    intro d hd
    obtain ⟨-, amount, hamount, -⟩ := Assembler.of_mem_definitionDrafts hdefinition d hd
    exact ⟨amount, hamount⟩
  have hsuccess : CodeBook.successStatus ∈ successStatuses := by decide
  have hstatus : a.codes.result row.result ∈ successStatuses ↔ row.succeeded = true := by
    rw [hcodes]
    exact result_mem_successStatuses row.result
  -- itemized transfers and rewards are shown as far as they are explained
  have hshown : (itemized.map (Draft.measured (valueWhere counts))).sum +
      (rewardDrafts.map (Draft.measured (valueWhere counts))).sum =
        Tally.sumWhere accounts ((a.explained row rewards).map HbarTransfer.toPair) := by
    rw [value_of_hbarDrafts hcounts hitemized, value_of_hbarDrafts hcounts hrewardDrafts,
      if_pos hsuccess, Assembler.explained, List.map_append, Tally.sumWhere_append]
    simp only [hstatus]
    by_cases hsucceeded : row.succeeded = true
    · rw [if_pos hsucceeded, if_pos hsucceeded]
    · rw [if_neg hsucceeded, if_neg hsucceeded]
      rfl
  have hfee : (feeDrafts.map (Draft.measured (valueWhere counts))).sum =
      Tally.sumWhere accounts row.rawPairs -
        Tally.sumWhere (fun k => accounts k && decide (row.Touches k))
          ((a.explained row rewards).map HbarTransfer.toPair) := by
    rw [value_of_hbarDrafts hcounts hfeeDrafts, if_pos hsuccess]
    exact sumWhere_fees hfees accounts
  have hsplit := Tally.sumWhere_and_add_sumWhere accounts (fun k => decide (row.Touches k))
    ((a.explained row rewards).map HbarTransfer.toPair)
  refine ⟨rewards, hpaid, ?_⟩
  simp only [List.map_append, List.sum_append, htokenZero, hserialZero, hdefinitionZero]
  omega

theorem hbar_of_rowDrafts {a : Assembler} {row : TransactionRow} {drafts : List Draft}
    (hcodes : a.codes = .standard) (hrewards : row.RewardsTouch a.rewardAccount id.encode)
    (h : a.rowDrafts row = .ok drafts) :
    (drafts.map (Draft.measured (valueWhere (countsHbar id)))).sum = row.hbarMoved id.encode := by
  obtain ⟨rewards, hpaid, hsum⟩ := value_of_rowDrafts hcodes countsHbarOf_countsHbar h
  have hnothing : Tally.sumWhere
      (fun k => decide (k = id.encode) && !decide (row.Touches k))
        ((a.explained row rewards).map HbarTransfer.toPair) = 0 := by
    apply Tally.sumWhere_eq_zero
    intro e he
    obtain ⟨t, ht, rfl⟩ := List.mem_map.1 he
    by_contra hcounts
    simp only [Bool.not_eq_false, Bool.and_eq_true, decide_eq_true_eq, Bool.not_eq_true',
      decide_eq_false_iff_not] at hcounts
    obtain ⟨haccount, huntouched⟩ := hcounts
    have hsame : t.account = id.encode := haccount
    rcases account_of_explained hpaid ht with htouches | hpays
    · exact huntouched htouches
    · rw [hsame] at hpays
      exact huntouched (haccount ▸ hrewards hpays)
  rw [hsum, hnothing, hbarMoved_eq_sumOf, Tally.sumOf_eq_sumWhere, Int.add_zero]

end Operations

/-! ## Reconciliation -/

section Reconciliation

variable {s : Store} {settings : Settings} {selector : AccountSelector} {id : EntityId}
  {t₁ t₂ : Int64} {b₁ b₂ : AccountBalance} {transactions : List Transaction}

theorem effectiveTransfers_presented (row : TransactionRow) :
    (s.presented row).effectiveTransfers = row.effectiveTransfers := by
  unfold Store.presented
  split <;> rfl

theorem stakingRewards_presented (row : TransactionRow) :
    (s.presented row).stakingRewards = row.stakingRewards := by
  unfold Store.presented
  split <;> rfl

theorem hbar_of_alive {stop : Int64} {b : AccountBalance} (hnames : s.Names selector id)
    (halive : s.AliveAt id.encode stop)
    (h : s.Answers settings (.balance selector stop) (.balance b)) :
    ∃ snapshot ∈ s.snapshots.keys, snapshot ≤ stop ∧ ∃ value, b.hbar? = some value ∧
      value.toInt = s.snapshotHbar id.encode snapshot +
        s.moved (TransactionRow.hbarMoved id.encode) snapshot stop := by
  obtain ⟨window, snapshot, value, hwindow, hsnapshot, hreported, hvalue⟩ :=
    hbar_of_balance hnames h
  obtain rfl := window_of_alive halive hwindow
  obtain ⟨hkey, hbound⟩ := mem_keys_of_latestSnapshot hsnapshot
  exact ⟨snapshot, hkey, hbound, value, hreported, hvalue⟩

/-- The hbar that is reported for an account moves between two times by exactly what its
operations in between show. -/
theorem hbar_reconciles (hvalid : settings.config.validate = .ok ())
    (hcodes : settings.codes = .standard) (hdistinct : s.DistinctTimestamps) (hlt : t₁ < t₂)
    (hnames : s.Names selector id) (halive : s.AliveAt id.encode t₂)
    (hconsistent : s.Consistent (· ≤ t₂) (s.snapshotHbar id.encode)
      (TransactionRow.hbarMoved id.encode))
    (hsome : SomeTookEffect (s.transactions.after t₁ t₂))
    (hrewards : ∀ row ∈ s.transactions.after t₁ t₂,
      row.RewardsTouch settings.config.stakingRewardAccount.encode id.encode)
    (h₁ : s.Answers settings (.balance selector t₁) (.balance b₁))
    (h₂ : s.Answers settings (.balance selector t₂) (.balance b₂))
    (h : s.Answers settings (.transactions (t₁ + 1) t₂) (.transactions transactions)) :
    ∃ v₁ v₂, b₁.hbar? = some v₁ ∧ b₂.hbar? = some v₂ ∧
      v₂.toInt - v₁.toInt = totalValue (countsHbar id) transactions := by
  have halive₁ : s.AliveAt id.encode t₁ :=
    fun e he => aliveAt_of_lt hlt (halive e he)
  obtain ⟨x, hx, hxle, v₁, hv₁, hvalue₁⟩ := hbar_of_alive hnames halive₁ h₁
  obtain ⟨y, hy, hyle, v₂, hv₂, hvalue₂⟩ := hbar_of_alive hnames halive h₂
  have hle : t₁ ≤ t₂ := Int64.le_of_lt hlt
  have hmoved := moved_between_upTo hconsistent hx hy hxle hyle hle
  have htotal : totalValue (countsHbar id) transactions =
      s.moved (TransactionRow.hbarMoved id.encode) t₁ t₂ := by
    apply totalValue_of_transactions hvalid hdistinct hlt hsome h
    · intro row _
      rw [TransactionRow.hbarMoved, effectiveTransfers_presented, TransactionRow.hbarMoved]
    · intro row hrow drafts hdrafts
      refine hbar_of_rowDrafts hcodes ?_ hdrafts
      unfold TransactionRow.RewardsTouch TransactionRow.Touches
      rw [effectiveTransfers_presented, stakingRewards_presented]
      exact hrewards row hrow
  refine ⟨v₁, v₂, hv₁, hv₂, ?_⟩
  rw [htotal, hvalue₁, hvalue₂, hmoved]

end Reconciliation

/-- Account 1001 pays a fee of 1 for a transfer of 10, another of 2 for an attempt that fails, and
receives 2 and a staking reward of 5 in the attempt that then succeeds. -/
private def paidStore : Store :=
  let row : TransactionRow :=
    { consensusTimestamp := 10, hash := [1], transactionType := 14, result := 22, payer := 1001,
      entity? := none, memo := [],
      cryptoTransfers := [⟨1001, -11, none⟩, ⟨98, 1, none⟩, ⟨1002, 10, none⟩],
      itemizedTransfers := [⟨1001, -10⟩, ⟨1002, 10⟩], tokenTransfers := [], nftTransfers := [],
      stakingRewards := [], token? := none }
  Store.ingestAll {} [
    .entity ⟨1001, none, none⟩,
    .hbarBalance 5 (.numbered 1001) 100,
    .hbarBalance 15 (.numbered 1001) 89,
    .transaction row,
    .transaction { row with
      consensusTimestamp := 20, hash := [2], result := 10,
      cryptoTransfers := [⟨1001, -2, none⟩, ⟨98, 2, none⟩],
      itemizedTransfers := [⟨1001, -1⟩] },
    .transaction { row with
      consensusTimestamp := 25, hash := [2],
      cryptoTransfers := [⟨1001, 7, none⟩, ⟨1002, -2, none⟩, ⟨800, -5, none⟩],
      itemizedTransfers := [⟨1001, 2⟩, ⟨1002, -2⟩], stakingRewards := [⟨1001, 5⟩] }]

private def paidTransactions : List Transaction :=
  match (({ store := paidStore : Node }).ask .background (.transactions 9 30)).1 with
  | .ok (.transactions transactions) => transactions
  | _ => []

theorem hbar_reconciles_paid :
    (94 : Int64).toInt - (100 : Int64).toInt =
      totalValue (countsHbar (.numbered 1001)) paidTransactions := by
  have hbalance : ∀ stop value, stop = 8 ∧ value = 100 ∨ stop = 30 ∧ value = 94 →
      paidStore.Answers ⟨.standard, .standard⟩ (.balance (.byId (.numbered 1001)) stop)
        (.balance ⟨"0.0.1001", none, [.hbar value]⟩) := by
    rintro stop value (⟨rfl, rfl⟩ | ⟨rfl, rfl⟩)
    · exact ⟨{ store := paidStore }, .background, rfl, rfl, by decide +kernel⟩
    · exact ⟨{ store := paidStore }, .background, rfl, rfl, by decide +kernel⟩
  have htransactions : paidStore.Answers ⟨.standard, .standard⟩ (.transactions (8 + 1) 30)
      (.transactions paidTransactions) :=
    ⟨{ store := paidStore }, .background, rfl, rfl, by decide +kernel⟩
  have hnames : paidStore.Names (.byId (.numbered 1001)) (.numbered 1001) := rfl
  obtain ⟨v₁, v₂, hv₁, hv₂, hdiff⟩ := hbar_reconciles rfl rfl (by decide) (by decide) hnames
    (by decide) (by decide +kernel) (by decide +kernel) (by decide +kernel)
    (hbalance 8 100 (.inl ⟨rfl, rfl⟩)) (hbalance 30 94 (.inr ⟨rfl, rfl⟩)) htransactions
  cases hv₁
  cases hv₂
  exact hdiff

end LedgerView
