import Mathlib
import LedgerView.Proofs.Balance.Token
import LedgerView.Proofs.Reconciliation
import LedgerView.Proofs.Timeline
/-!
# Token balances against operations

The operations of a row show what it moves of a token leg by leg, where a balance nets it. The
definition of a token, which comes as an operation too, moves nothing (`token_of_rowDrafts`). A
token that is not deleted is presented with all its movements, so its balance changes by just what
its operations show.
-/

namespace LedgerView

/-- The operations on an account's token, whether or not they took effect. -/
def countsToken (account token : EntityId) : String → EntityId → Amount → Bool :=
  fun _ owner amount => owner = account ∧ amount.tokenId? = some token

section Operations

variable {id token : EntityId} {operationType status : String}

theorem tokenValue_of_hbarDrafts {transfers : List HbarTransfer} {drafts : List Draft}
    (h : (transfers.mapM fun t => Draft.ofLeg operationType status t.leg) = .ok drafts) :
    (drafts.map (Draft.measured (valueWhere (countsToken id token)))).sum = 0 := by
  apply sum_measured_eq_zero
  refine forall_mem_of_mapM h fun t _ d hd => ?_
  have hamount : d.amount = .hbar t.amount := amount_of_hbarLeg hd
  rw [Draft.measured, hamount]
  simp [valueWhere, countsToken, Amount.tokenId?]

theorem tokenValue_of_leg {account column value : Int64} {decimals : UInt32}
    {tokenType : TokenType} {serialNumbers : List Int64} {d : Draft}
    (h : Draft.ofLeg operationType status
      ⟨account, .token column decimals tokenType value serialNumbers⟩ = .ok d) :
    d.measured (valueWhere (countsToken id token)) =
      if account = id.encode ∧ column = token.encode then value.toInt else 0 := by
  obtain ⟨haccount, -, -⟩ := ofLeg_eq_ok h
  obtain ⟨tokenId, rfl, hamount⟩ := amount_of_tokenLeg h
  obtain rfl : account = d.account.encode := haccount
  rw [Draft.measured, hamount]
  simp [valueWhere, countsToken, Amount.tokenId?, Amount.value, encode_inj]

theorem token_of_rowDrafts {a : Assembler} {row : TransactionRow} {drafts : List Draft}
    (h : a.rowDrafts row = .ok drafts) :
    (drafts.map (Draft.measured (valueWhere (countsToken id token)))).sum =
      row.tokenMoved id.encode token.encode := by
  obtain ⟨itemized, rewards, fees, feeDrafts, rewardDrafts, tokens, serials, definition,
    hitemized, -, -, hfeeDrafts, hrewardDrafts, htokens, hserials, hdefinition, rfl⟩ :=
    Assembler.rowDrafts_eq_ok h
  have hunits : (tokens.map (Draft.measured (valueWhere (countsToken id token)))).sum =
      row.unitsMoved id.encode token.encode := by
    have hfilter : (row.tokenTransfers.filter fun t =>
        t.account = id.encode ∧ t.token = token.encode ∧ t.tokenType = .fungibleCommon) =
        (row.tokenTransfers.filter fun t => t.tokenType = .fungibleCommon).filter fun t =>
          t.account = id.encode ∧ t.token = token.encode := by
      rw [List.filter_filter]
      apply List.filter_congr
      intro t _
      rw [← Bool.decide_and, decide_eq_decide]
      exact and_assoc.symm
    rw [TransactionRow.unitsMoved, hfilter, sum_map_filter,
      sum_map_of_mapM htokens fun t _ d hd => tokenValue_of_leg hd]
    simp only [decide_eq_true_eq]
  have hserialsMoved : (serials.map (Draft.measured (valueWhere (countsToken id token)))).sum =
      row.serialsMoved id.encode token.encode := by
    rw [sum_map_of_mapM hserials fun l _ d hd => tokenValue_of_leg hd,
      TransactionRow.serialsMoved, sum_map_filter]
    simp only [decide_eq_true_eq]
  have hdefinitionZero :
      (definition.map (Draft.measured (valueWhere (countsToken id token)))).sum = 0 := by
    apply sum_measured_eq_zero
    intro d hd
    obtain ⟨-, amount, hamount, hvalue⟩ := Assembler.of_mem_definitionDrafts hdefinition d hd
    have hzero : (0 : Int64).toInt = 0 := rfl
    simp [Draft.measured, valueWhere, hamount, Amount.value, hvalue, hzero]
  simp only [List.map_append, List.sum_append, tokenValue_of_hbarDrafts hitemized,
    tokenValue_of_hbarDrafts hfeeDrafts, tokenValue_of_hbarDrafts hrewardDrafts, hunits,
    hserialsMoved, hdefinitionZero, TransactionRow.tokenMoved]
  omega

end Operations

/-! ## Live tokens -/

section Live

variable {s : Store} {account token : Int64}

theorem tokenMoved_presented (hlive : s.isLive token = true) (row : TransactionRow) :
    (s.presented row).tokenMoved account token = row.tokenMoved account token := by
  unfold Store.presented
  split
  · rfl
  · have hunits : (s.liveRow row).unitsMoved account token = row.unitsMoved account token := by
      rw [TransactionRow.unitsMoved, Store.liveRow, List.filter_filter, TransactionRow.unitsMoved]
      congr 2
      apply List.filter_congr
      intro t _
      by_cases htoken : t.token = token
      · rw [htoken, hlive, Bool.and_true]
      · simp [htoken]
    have hserials : (s.liveRow row).serialsMoved account token =
        row.serialsMoved account token := by
      rw [TransactionRow.serialsMoved, Store.liveRow, filter_legs, TransactionRow.serialsMoved]
      intro n _ l hl hcounts
      rw [decide_eq_true_iff] at hcounts
      rw [← (of_mem_legs hl).1, hcounts.2, hlive]
    rw [TransactionRow.tokenMoved, hunits, hserials, TransactionRow.tokenMoved]

end Live

/-! ## Reconciliation -/

section Reconciliation

variable {s : Store} {settings : Settings} {selector : AccountSelector} {id token : EntityId}
  {t₁ t₂ : Int64} {b₁ b₂ : AccountBalance} {transactions : List Transaction} {state : TokenState}

/-- The value that is reported for a token moves between two times by exactly what the account's
operations in between show of the token. -/
theorem token_reconciles (hvalid : settings.config.validate = .ok ())
    (hdistinct : s.DistinctTimestamps) (hlt : t₁ < t₂) (hnames : s.Names selector id)
    (halive : s.AliveAt id.encode t₂) (hstate : s.tokens.get? token.encode = some state)
    (hlive : state.deleted = false)
    (hassociated : ((s.associationEvents id.encode token.encode).latest? t₁).map
      AssociationEvent.associated = some true)
    (hquiet : (s.associationEvents id.encode token.encode).after t₁ t₂ = [])
    (hconsistent : s.Consistent (· ≤ t₂) (s.snapshotToken id.encode token.encode)
      (TransactionRow.tokenMoved id.encode token.encode))
    (htyped : s.MovesByType token.encode state.tokenType)
    (hsome : SomeTookEffect (s.transactions.after t₁ t₂))
    (h₁ : s.Answers settings (.balance selector t₁) (.balance b₁))
    (h₂ : s.Answers settings (.balance selector t₂) (.balance b₂))
    (h : s.Answers settings (.transactions (t₁ + 1) t₂) (.transactions transactions)) :
    ∃ v₁ v₂, b₁.valuesOf token = [v₁] ∧ b₂.valuesOf token = [v₂] ∧
      v₂.toInt - v₁.toInt = totalValue (countsToken id token) transactions := by
  have hle : t₁ ≤ t₂ := Int64.le_of_lt hlt
  have halive₁ : s.AliveAt id.encode t₁ :=
    fun e he => aliveAt_of_lt hlt (halive e he)
  obtain ⟨event, hlatest₁, hevent⟩ := Option.map_eq_some_iff.1 hassociated
  have hlatest₂ := (Timeline.latest?_of_after_eq_nil hle hquiet).trans hlatest₁
  obtain ⟨x, hx, hxle, v₁, hv₁, hvalue₁⟩ :=
    token_of_alive hnames halive₁ hstate hlatest₁ hevent htyped h₁
  obtain ⟨y, hy, hyle, v₂, hv₂, hvalue₂⟩ :=
    token_of_alive hnames halive hstate hlatest₂ hevent htyped h₂
  have hmoved := moved_between_upTo hconsistent hx hy hxle hyle hle
  have hpresented : s.isLive token.encode = true := by
    rw [Store.isLive, hstate]
    simp [hlive]
  have htotal : totalValue (countsToken id token) transactions =
      s.moved (TransactionRow.tokenMoved id.encode token.encode) t₁ t₂ := by
    apply totalValue_of_transactions hvalid hdistinct hlt hsome h
    · intro row _
      exact tokenMoved_presented hpresented row
    · intro row _ drafts hdrafts
      exact token_of_rowDrafts hdrafts
  refine ⟨v₁, v₂, hv₁, hv₂, ?_⟩
  rw [htotal, hvalue₁, hvalue₂, hmoved]

end Reconciliation

/-- Account 1001 is minted two serials of token 3000, one of which it sends to itself in between,
and pays and receives units of token 2000. -/
private def mintedStore : Store :=
  let row : TransactionRow :=
    { consensusTimestamp := 10, hash := [1], transactionType := 37, result := 22, payer := 1001,
      entity? := none, memo := [], cryptoTransfers := [], itemizedTransfers := [],
      tokenTransfers := [⟨1001, 2000, -7, 2, .fungibleCommon⟩],
      nftTransfers := [⟨none, some 1001, 1, 3000⟩], stakingRewards := [], token? := none }
  Store.ingestAll {} [
    .entity ⟨1001, none, none⟩,
    .token ⟨2000, 2, .fungibleCommon, false, 100⟩,
    .token ⟨3000, 0, .nonFungibleUnique, false, 0⟩,
    .association (.numbered 1001) (.numbered 2000) true 1,
    .association (.numbered 1001) (.numbered 3000) true 2,
    .tokenBalance 5 (.numbered 1001) (.numbered 2000) 50,
    .tokenBalance 15 (.numbered 1001) (.numbered 2000) 43,
    .tokenBalance 15 (.numbered 1001) (.numbered 3000) 1,
    .transaction row,
    .transaction { row with
      consensusTimestamp := 20, hash := [2], result := 10,
      tokenTransfers := [⟨1001, 2000, 4, 2, .fungibleCommon⟩],
      nftTransfers := [⟨some 1001, some 1001, 1, 3000⟩] },
    .transaction { row with
      consensusTimestamp := 25, hash := [2], tokenTransfers := [],
      nftTransfers := [⟨none, some 1001, 2, 3000⟩] }]

private def mintedBalance (units serials : Int64) : AccountBalance :=
  ⟨"0.0.1001", none, [
    .hbar 0,
    .token ⟨.numbered 2000, 2, .fungibleCommon, units, []⟩,
    .token ⟨.numbered 3000, 0, .nonFungibleUnique, serials, []⟩]⟩

private def mintedTransactions : List Transaction :=
  match (({ store := mintedStore : Node }).ask .background (.transactions 9 30)).1 with
  | .ok (.transactions transactions) => transactions
  | _ => []

theorem token_reconciles_minted :
    (47 : Int64).toInt - (50 : Int64).toInt =
        totalValue (countsToken (.numbered 1001) (.numbered 2000)) mintedTransactions ∧
      (2 : Int64).toInt - (0 : Int64).toInt =
        totalValue (countsToken (.numbered 1001) (.numbered 3000)) mintedTransactions := by
  have hnames : mintedStore.Names (.byId (.numbered 1001)) (.numbered 1001) := rfl
  have hearly : mintedStore.Answers ⟨.standard, .standard⟩ (.balance (.byId (.numbered 1001)) 8)
      (.balance (mintedBalance 50 0)) :=
    ⟨{ store := mintedStore }, .background, rfl, rfl, by cbv⟩
  have hlate : mintedStore.Answers ⟨.standard, .standard⟩ (.balance (.byId (.numbered 1001)) 30)
      (.balance (mintedBalance 47 2)) :=
    ⟨{ store := mintedStore }, .background, rfl, rfl, by cbv⟩
  have htransactions : mintedStore.Answers ⟨.standard, .standard⟩ (.transactions (8 + 1) 30)
      (.transactions mintedTransactions) :=
    ⟨{ store := mintedStore }, .background, rfl, rfl, by decide +kernel⟩
  have hfungible : mintedStore.tokens.get? (EntityId.numbered 2000).encode =
      some ⟨2, .fungibleCommon, false⟩ := rfl
  have hnonFungible : mintedStore.tokens.get? (EntityId.numbered 3000).encode =
      some ⟨0, .nonFungibleUnique, false⟩ := rfl
  constructor
  · obtain ⟨v₁, v₂, hv₁, hv₂, hdiff⟩ := token_reconciles rfl (by decide) (by decide) hnames
      (by decide) hfungible rfl rfl rfl (by decide +kernel) (by decide +kernel)
      (by decide +kernel) hearly hlate htransactions
    cases hv₁
    cases hv₂
    exact hdiff
  · obtain ⟨v₁, v₂, hv₁, hv₂, hdiff⟩ := token_reconciles rfl (by decide) (by decide) hnames
      (by decide) hnonFungible rfl rfl rfl (by decide +kernel) (by decide +kernel)
      (by decide +kernel) hearly hlate htransactions
    cases hv₁
    cases hv₂
    exact hdiff

end LedgerView
