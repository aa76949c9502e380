import Mathlib
import LedgerView.Proofs.FirstAppearance
import LedgerView.Proofs.Reconciliation.Hbar
/-!
# What is a fee

The operations of a row come in parts. It shows some of its itemized transfers and all rewards, and
then of every account with raw transfers, by first appearance, what these leave of the raw total,
unless it is nothing (`fees_of_build`). An attempt that failed shows its itemized transfers too, but
they leave the whole raw total to the fees.
-/

namespace LedgerView

/-- The accounts of the effective raw transfers, each where it first came up. -/
def TransactionRow.rawAccounts (row : TransactionRow) : List Int64 :=
  (row.effectiveTransfers.map CryptoTransfer.account).eraseDups

/-- The account of an operation and its value. -/
def Operation.toPair (op : Operation) : Int64 × Int64 :=
  (op.account.encode, op.amount.value)

/-- The operation shows a transfer of hbar. -/
structure Operation.ShowsHbar (operationType status : String) (t : HbarTransfer)
    (op : Operation) : Prop where
  operationType : op.operationType = operationType
  status : op.status = status
  account : op.account.encode = t.account
  amount : op.amount = .hbar t.amount
  metadata? : op.metadata? = none

/-- The operations of a row by what they show. -/
structure RowOperations where
  itemized : List Operation
  fees : List Operation
  rewards : List Operation
  tokens : List Operation

def RowOperations.all (ops : RowOperations) : List Operation :=
  ops.itemized ++ ops.fees ++ ops.rewards ++ ops.tokens

namespace Assembler

variable {a : Assembler} {row : TransactionRow} {rewards : List HbarTransfer}

/-- What an account's raw total has beyond the itemized transfers, which count if the row took
effect, and the rewards. -/
def unexplained (a : Assembler) (row : TransactionRow) (rewards : List HbarTransfer)
    (account : Int64) : Int :=
  Tally.sumOf account row.rawPairs -
    Tally.sumOf account
      ((if row.succeeded then a.nonFeeTransfers row else []).map HbarTransfer.toPair) -
    Tally.sumOf account (rewards.map HbarTransfer.toPair)

/-- The operations are those of the row, which has these rewards and their debit. -/
structure Splits (a : Assembler) (row : TransactionRow) (rewards : List HbarTransfer)
    (ops : RowOperations) : Prop where
  paid : (a.rewardTransfers row : Outcome LedgerError _) = .ok rewards
  itemized : List.Forall₂
    (Operation.ShowsHbar (a.codes.transactionType row.transactionType) (a.codes.result row.result))
    (row.itemizedTransfers.filter fun t => a.Keeps row t.account) ops.itemized
  fees : List.Forall₂
    (fun account op => ∃ value : Int64, value.toInt = a.unexplained row rewards account ∧
      op.ShowsHbar CodeBook.feeType CodeBook.successStatus ⟨account, value⟩)
    (row.rawAccounts.filter fun account => a.unexplained row rewards account ≠ 0) ops.fees
  /-- No account has two fees, and they stand in the order of the raw transfers. -/
  inOrder : (ops.fees.map fun op => op.account.encode).Pairwise fun x y =>
    (row.effectiveTransfers.map CryptoTransfer.account).idxOf x <
      (row.effectiveTransfers.map CryptoTransfer.account).idxOf y
  rewards : List.Forall₂ (Operation.ShowsHbar CodeBook.rewardType CodeBook.successStatus)
    rewards ops.rewards
  tokens : ∀ op ∈ ops.tokens,
    op.operationType = a.codes.transactionType row.transactionType ∧
      ∃ amount, op.amount = .token amount
  /-- Apart from attempts that failed, the parts add up to the raw total. -/
  total : ∀ account, row.Touches account →
    Tally.sumOf account (((if row.succeeded then ops.itemized else []) ++ ops.fees ++
      ops.rewards).map Operation.toPair) = Tally.sumOf account row.rawPairs
  /-- Fees are told by their type, unless a type of transactions has its name, as none has by the
  standard code book (`transactionType_ne_feeType`). -/
  named : a.codes.transactionType row.transactionType ≠ CodeBook.feeType →
    (ops.all.filter fun op => op.operationType = CodeBook.feeType) = ops.fees

theorem transactionType_ne_feeType (code : Int32) :
    CodeBook.standard.transactionType code ≠ CodeBook.feeType := by
  rw [CodeBook.transactionType]
  cases hname : lastName? code CodeBook.standard.transactionTypes with
  | none => decide
  | some name =>
    have hentries : ∀ entry ∈ CodeBook.standard.transactionTypes,
        entry.2 ≠ CodeBook.feeType := by decide
    exact hentries (code, name) (mem_of_lastName? hname)

/-! ## Amounts -/

theorem unexplained_eq (a : Assembler) (row : TransactionRow) (rewards : List HbarTransfer)
    (account : Int64) :
    a.unexplained row rewards account = Tally.sumOf account row.rawPairs -
      Tally.sumOf account ((a.explained row rewards).map HbarTransfer.toPair) := by
  rw [unexplained, explained, List.map_append, Tally.sumOf_append]
  omega

theorem fees_eq_ok {ε : Type} {fees : List HbarTransfer}
    (h : row.fees (a.explained row rewards) = (.ok fees : Outcome ε _)) :
    fees.map HbarTransfer.account =
        row.rawAccounts.filter (fun account => a.unexplained row rewards account ≠ 0) ∧
      ∀ fee ∈ fees, fee.amount.toInt = a.unexplained row rewards fee.account := by
  simp only [TransactionRow.fees, bind_eq_ok, pure_eq_ok] at h
  obtain ⟨raw, hraw, left, hleft, rfl⟩ := h
  have hrawKeys : raw.keys = row.rawAccounts := by
    rw [Tally.keys_addAll hraw, List.map_map]
    rfl
  have hleftKeys : left.map Prod.fst = row.rawAccounts :=
    (Tally.takeAwayAll_spec hleft).1.trans hrawKeys
  have hvalue : ∀ e ∈ left, e.2.toInt = a.unexplained row rewards e.1 := by
    intro e he
    calc e.2.toInt
        = Tally.sumOf e.1 raw -
            Tally.sumOf e.1 ((a.explained row rewards).map HbarTransfer.toPair) :=
          Tally.toInt_of_takeAwayAll hleft (hrawKeys ▸ nodup_eraseDups _) he
      _ = Tally.sumOf e.1 row.rawPairs -
            Tally.sumOf e.1 ((a.explained row rewards).map HbarTransfer.toPair) := by
          rw [Tally.sumOf_addAll hraw, Tally.sumOf_nil, Int.zero_add]
          rfl
      _ = a.unexplained row rewards e.1 := (unexplained_eq a row rewards e.1).symm
  have hzero : ∀ e ∈ left, decide (e.2 ≠ 0) = decide (a.unexplained row rewards e.1 ≠ 0) := by
    intro e he
    rw [← hvalue e he, decide_eq_decide]
    exact not_congr (Int64.toInt_inj (y := 0)).symm
  constructor
  · rw [← hleftKeys, List.filter_map, List.map_map, Tally.remainders, List.filter_congr hzero]
    rfl
  · intro fee hfee
    obtain ⟨e, he, rfl⟩ := List.mem_map.1 hfee
    exact hvalue e (List.mem_of_mem_filter he)

/-- What is left of an account that the row touches is its fee. -/
theorem sumOf_fees {ε : Type} {fees : List HbarTransfer} {account : Int64}
    (h : row.fees (a.explained row rewards) = (.ok fees : Outcome ε _))
    (htouches : row.Touches account) :
    Tally.sumOf account (fees.map HbarTransfer.toPair) = a.unexplained row rewards account := by
  have hsum := sumWhere_fees h fun k => k = account
  rw [Tally.sumWhere_and_eq_sumOf (decide_eq_true htouches)] at hsum
  simp only [← Tally.sumOf_eq_sumWhere] at hsum
  rw [hsum, unexplained_eq]

/-! ## Operations -/

theorem forall₂_numberFrom {α : Type} {R : α → Operation → Prop} {xs : List α}
    {drafts : List Draft}
    (h : List.Forall₂ (fun x d => ∀ index, R x (d.numbered index)) xs drafts) (start : Nat) :
    List.Forall₂ R xs (Draft.numberFrom start drafts) := by
  induction h generalizing start with
  | nil => exact .nil
  | cons hfirst _ ih => exact .cons (hfirst start) (ih (start + 1))

theorem forall_mem_numberFrom {P : Operation → Prop} {drafts : List Draft}
    (h : ∀ d ∈ drafts, ∀ index, P (d.numbered index)) (start : Nat) :
    ∀ op ∈ Draft.numberFrom start drafts, P op := by
  induction drafts generalizing start with
  | nil => simp [Draft.numberFrom]
  | cons d drafts ih =>
    obtain ⟨hfirst, hrest⟩ := List.forall_mem_cons.1 h
    exact List.forall_mem_cons.2 ⟨hfirst start, ih hrest (start + 1)⟩

section Shown

variable {operationType status : String} {transfers : List HbarTransfer} {ops : List Operation}

theorem showsHbar_of_mapM {drafts : List Draft}
    (h : (transfers.mapM fun t => Draft.ofLeg operationType status t.leg) = .ok drafts)
    (start : Nat) :
    List.Forall₂ (Operation.ShowsHbar operationType status) transfers
      (Draft.numberFrom start drafts) := by
  refine forall₂_numberFrom ((mapM_eq_ok_iff.1 h).imp fun t d hd index => ?_) start
  obtain ⟨account, amount, haccount, hamount, rfl⟩ := ofLeg_eq_ok_iff.1 hd
  exact ⟨rfl, rfl, haccount.symm, (Except.ok.inj hamount).symm, rfl⟩

theorem map_toPair (h : List.Forall₂ (Operation.ShowsHbar operationType status) transfers ops) :
    ops.map Operation.toPair = transfers.map HbarTransfer.toPair := by
  induction h with
  | nil => rfl
  | @cons t op _ _ hshows _ ih =>
    have hpair : op.toPair = t.toPair := by
      rw [Operation.toPair, hshows.account, hshows.amount]
      rfl
    rw [List.map_cons, List.map_cons, ih, hpair]

theorem operationType_of_forall₂
    (h : List.Forall₂ (Operation.ShowsHbar operationType status) transfers ops) :
    ∀ op ∈ ops, op.operationType = operationType := by
  induction h with
  | nil => simp
  | cons hshows _ ih => exact List.forall_mem_cons.2 ⟨hshows.operationType, ih⟩

theorem filter_type_eq_self (h : ∀ op ∈ ops, op.operationType = operationType) :
    (ops.filter fun op => op.operationType = operationType) = ops :=
  List.filter_eq_self.2 fun op hop => decide_eq_true (h op hop)

theorem filter_type_eq_nil {other : String} (h : ∀ op ∈ ops, op.operationType = operationType)
    (hne : operationType ≠ other) : (ops.filter fun op => op.operationType = other) = [] := by
  rw [List.filter_eq_nil_iff]
  intro op hop hother
  exact hne ((h op hop).symm.trans (of_decide_eq_true hother))

theorem shows_of_tokenLeg {account column value : Int64} {decimals : UInt32}
    {tokenType : TokenType} {serialNumbers : List Int64} {d : Draft}
    (h : Draft.ofLeg operationType status
      ⟨account, .token column decimals tokenType value serialNumbers⟩ = .ok d) :
    d.operationType = operationType ∧ ∃ amount, d.amount = .token amount := by
  obtain ⟨tokenId, -, hamount⟩ := amount_of_tokenLeg h
  exact ⟨(ofLeg_eq_ok h).2.2.2, _, hamount⟩

end Shown

theorem splits_of_shown {fees : List HbarTransfer} {ops : RowOperations}
    (hpaid : (a.rewardTransfers row : Outcome LedgerError _) = .ok rewards)
    (hfees : (row.fees (a.explained row rewards) : Outcome LedgerError _) = .ok fees)
    (hitemized : List.Forall₂
      (Operation.ShowsHbar (a.codes.transactionType row.transactionType)
        (a.codes.result row.result)) (a.nonFeeTransfers row) ops.itemized)
    (hfeeOps : List.Forall₂ (Operation.ShowsHbar CodeBook.feeType CodeBook.successStatus)
      fees ops.fees)
    (hrewardOps : List.Forall₂ (Operation.ShowsHbar CodeBook.rewardType CodeBook.successStatus)
      rewards ops.rewards)
    (htokens : ∀ op ∈ ops.tokens,
      op.operationType = a.codes.transactionType row.transactionType ∧
        ∃ amount, op.amount = .token amount) :
    a.Splits row rewards ops := by
  obtain ⟨haccounts, hvalues⟩ := fees_eq_ok hfees
  refine ⟨hpaid, nonFeeTransfers_eq a row ▸ hitemized, ?fees, ?inOrder, hrewardOps, htokens,
    ?total, ?named⟩
  case fees =>
    rw [← haccounts, List.forall₂_map_left_iff]
    refine ((List.forall₂_and_left _ _).2 ⟨hvalues, hfeeOps⟩).imp fun fee op hfee => ?_
    exact ⟨fee.amount, hfee.1, hfee.2⟩
  case inOrder =>
    have hshown : (ops.fees.map fun op => op.account.encode) = fees.map HbarTransfer.account := by
      have hpairs := congrArg (List.map Prod.fst) (map_toPair hfeeOps)
      rwa [List.map_map, List.map_map] at hpairs
    rw [hshown, haccounts]
    exact (pairwise_eraseDups _).filter _
  case total =>
    intro account htouches
    have happlied : (if row.succeeded then ops.itemized else []).map Operation.toPair =
        (if row.succeeded then a.nonFeeTransfers row else []).map HbarTransfer.toPair := by
      split
      · exact map_toPair hitemized
      · rfl
    calc Tally.sumOf account (((if row.succeeded then ops.itemized else []) ++ ops.fees ++
          ops.rewards).map Operation.toPair)
        = Tally.sumOf account
              ((if row.succeeded then a.nonFeeTransfers row else []).map HbarTransfer.toPair) +
            Tally.sumOf account (fees.map HbarTransfer.toPair) +
            Tally.sumOf account (rewards.map HbarTransfer.toPair) := by
          rw [List.map_append, List.map_append, Tally.sumOf_append, Tally.sumOf_append, happlied,
            map_toPair hfeeOps, map_toPair hrewardOps]
      _ = Tally.sumOf account row.rawPairs := by
          rw [sumOf_fees hfees htouches, unexplained]
          omega
  case named =>
    intro hname
    rw [RowOperations.all, List.filter_append, List.filter_append, List.filter_append,
      filter_type_eq_nil (operationType_of_forall₂ hitemized) hname,
      filter_type_eq_self (operationType_of_forall₂ hfeeOps),
      filter_type_eq_nil (operationType_of_forall₂ hrewardOps) (by decide),
      filter_type_eq_nil (fun op hop => (htokens op hop).1) hname]
    simp

theorem exists_splits_of_rowDrafts {drafts : List Draft} (h : a.rowDrafts row = .ok drafts)
    (start : Nat) :
    ∃ ops : RowOperations, Draft.numberFrom start drafts = ops.all ∧
      ∃ rewards, a.Splits row rewards ops := by
  obtain ⟨itemized, rewards, fees, feeDrafts, rewardDrafts, tokens, serials, definition,
    hitemized, hpaid, hfees, hfeeDrafts, hrewardDrafts, htokens, hserials, hdefinition, rfl⟩ :=
    rowDrafts_eq_ok h
  have hothers : ∀ d ∈ tokens ++ serials ++ definition, ∀ index,
      (d.numbered index).operationType = a.codes.transactionType row.transactionType ∧
        ∃ amount, (d.numbered index).amount = .token amount := by
    intro d hd index
    rcases List.mem_append.1 hd with hd | hd
    · rcases List.mem_append.1 hd with hd | hd
      · exact forall_mem_of_mapM htokens (fun t _ d hleg => shows_of_tokenLeg hleg) d hd
      · exact forall_mem_of_mapM hserials (fun l _ d hleg => shows_of_tokenLeg hleg) d hd
    · obtain ⟨htype, amount, hamount, -⟩ := of_mem_definitionDrafts hdefinition d hd
      exact ⟨htype, amount, hamount⟩
  refine ⟨⟨Draft.numberFrom start itemized,
    Draft.numberFrom (start + itemized.length) feeDrafts,
    Draft.numberFrom (start + (itemized ++ feeDrafts).length) rewardDrafts,
    Draft.numberFrom (start + (itemized ++ feeDrafts ++ rewardDrafts).length)
      (tokens ++ serials ++ definition)⟩, ?_, rewards, ?_⟩
  · rw [List.append_assoc _ serials, List.append_assoc _ tokens, Draft.numberFrom_append,
      Draft.numberFrom_append, Draft.numberFrom_append, ← List.append_assoc tokens]
    rfl
  · exact splits_of_shown hpaid hfees (showsHbar_of_mapM hitemized _)
      (showsHbar_of_mapM hfeeDrafts _) (showsHbar_of_mapM hrewardDrafts _)
      (forall_mem_numberFrom hothers _)

theorem exists_splits_of_mapM {rows : List TransactionRow} {lists : List (List Draft)}
    (h : rows.mapM a.rowDrafts = .ok lists) (start : Nat) :
    ∃ parts : List RowOperations,
      Draft.numberFrom start lists.flatten = parts.flatMap RowOperations.all ∧
        List.Forall₂ (fun row ops => ∃ rewards, a.Splits row rewards ops) rows parts := by
  induction rows generalizing lists start with
  | nil =>
    rw [mapM_nil_eq_ok.1 h]
    exact ⟨[], rfl, .nil⟩
  | cons row rows ih =>
    obtain ⟨drafts, others, hfirst, hrest, rfl⟩ := mapM_cons_eq_ok.1 h
    obtain ⟨ops, hops, hsplits⟩ := exists_splits_of_rowDrafts hfirst start
    obtain ⟨parts, hparts, hall⟩ := ih hrest (start + drafts.length)
    refine ⟨ops :: parts, ?_, .cons hsplits hall⟩
    rw [List.flatten_cons, Draft.numberFrom_append, hops, hparts, List.flatMap_cons]

/-- A transaction of which some row took effect shows, row after row, the parts of the row's
operations. -/
theorem fees_of_build {rows : List TransactionRow} {t : Transaction}
    (hsome : ∃ row ∈ rows, row.succeeded) (h : a.build rows = .ok t) :
    ∃ parts : List RowOperations, t.operations = parts.flatMap RowOperations.all ∧
      List.Forall₂ (fun row ops => ∃ rewards, a.Splits row rewards ops) rows parts := by
  obtain ⟨first, others, primary, rfl, hprimary⟩ := exists_primary hsome
  obtain ⟨lists, entityId?, hlists, -, rfl⟩ := (build_eq_ok_iff hprimary).1 h
  exact exists_splits_of_mapM hlists 0

/-- Account 1001 moves 2 hbar of account 1002 to itself, fails to at first, and is rewarded by 5 when
it does; either attempt costs it a fee. -/
private def retried : List TransactionRow :=
  let row : TransactionRow :=
    { consensusTimestamp := 10, hash := [1], transactionType := 14, result := 10, payer := 1001,
      entity? := none, memo := [],
      cryptoTransfers := [⟨1001, -3, none⟩, ⟨98, 2, none⟩, ⟨1001, 1, none⟩],
      itemizedTransfers := [⟨1001, 2⟩, ⟨1002, -2⟩], tokenTransfers := [], nftTransfers := [],
      stakingRewards := [], token? := none }
  [row,
    { row with
      consensusTimestamp := 11, result := 22,
      cryptoTransfers := [⟨1001, 6, none⟩, ⟨1002, -2, none⟩, ⟨98, 1, none⟩, ⟨800, -5, none⟩],
      stakingRewards := [⟨1001, 5⟩] }]

private def retriedTransaction : Transaction :=
  { hash := "0x01", entityId? := none, memo := []
    operations := [
      ⟨0, "CRYPTOTRANSFER", "INSUFFICIENT_PAYER_BALANCE", .numbered 1001, .hbar 2, none⟩,
      ⟨1, "FEE", "SUCCESS", .numbered 1001, .hbar (-2), none⟩,
      ⟨2, "FEE", "SUCCESS", .numbered 98, .hbar 2, none⟩,
      ⟨3, "CRYPTOTRANSFER", "SUCCESS", .numbered 1001, .hbar 2, none⟩,
      ⟨4, "CRYPTOTRANSFER", "SUCCESS", .numbered 1002, .hbar (-2), none⟩,
      ⟨5, "FEE", "SUCCESS", .numbered 1001, .hbar (-1), none⟩,
      ⟨6, "FEE", "SUCCESS", .numbered 98, .hbar 1, none⟩,
      ⟨7, "CRYPTOTRANSFER", "SUCCESS", .numbered 1001, .hbar 5, none⟩,
      ⟨8, "CRYPTOTRANSFER", "SUCCESS", .numbered 800, .hbar (-5), none⟩] }

theorem fees_of_build_retried :
    ∃ parts : List RowOperations,
      retriedTransaction.operations = parts.flatMap RowOperations.all ∧
        List.Forall₂ (fun row ops => ∃ rewards, Splits ⟨.standard, 800⟩ row rewards ops)
          retried parts :=
  fees_of_build (by decide) (by decide +kernel : build _ retried = .ok retriedTransaction)

end Assembler

end LedgerView
