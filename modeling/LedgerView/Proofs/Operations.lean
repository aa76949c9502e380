import Mathlib
import LedgerView.Proofs.Assembly
/-!
# What operations add up to

A measure gives every operation a number by its status, account and amount. If each row's
operations measure up to some figure of the row, then so do the transactions that the rows are
assembled into, for no row is dropped or counted twice (`measured_assemble`). That needs some row
of every hash to have taken effect, since a transaction that failed throughout shows none of its
movements.
-/

namespace LedgerView

/-- What an operation counts for, by its status, its account and its amount. -/
abbrev Measure := String → EntityId → Amount → Int

variable {w : Measure}

def Draft.measured (w : Measure) (d : Draft) : Int :=
  w d.status d.account d.amount

def Operation.measured (w : Measure) (op : Operation) : Int :=
  w op.status op.account op.amount

def Transaction.measured (w : Measure) (t : Transaction) : Int :=
  (t.operations.map (Operation.measured w)).sum

/-- Some row of every hash took effect. -/
def SomeTookEffect (rows : List TransactionRow) : Prop :=
  ∀ row ∈ rows, ∃ other ∈ rows, other.hash = row.hash ∧ other.succeeded

instance (rows : List TransactionRow) : Decidable (SomeTookEffect rows) :=
  inferInstanceAs (Decidable (∀ row ∈ rows, ∃ other ∈ rows, _))

theorem ofLeg_eq_ok_iff {operationType status : String} {leg : Leg} {d : Draft} :
    Draft.ofLeg operationType status leg = .ok d ↔
      ∃ account amount, leg.account = account.encode ∧ leg.movement.amount = .ok amount ∧
        d = { operationType, status, account, amount } := by
  simp only [Draft.ofLeg, bind_eq_ok, pure_eq_ok, Outcome.ofExcept_eq_ok, decodeColumn_eq_ok]
  constructor
  · rintro ⟨account, haccount, amount, hamount, rfl⟩
    exact ⟨account, amount, haccount, hamount, rfl⟩
  · rintro ⟨account, amount, haccount, hamount, rfl⟩
    exact ⟨account, haccount, amount, hamount, rfl⟩

theorem ofLeg_eq_ok {operationType status : String} {leg : Leg} {d : Draft}
    (h : Draft.ofLeg operationType status leg = .ok d) :
    leg.account = d.account.encode ∧ leg.movement.amount = .ok d.amount ∧ d.status = status ∧
      d.operationType = operationType := by
  obtain ⟨account, amount, haccount, hamount, rfl⟩ := ofLeg_eq_ok_iff.1 h
  exact ⟨haccount, hamount, rfl, rfl⟩

theorem amount_of_hbarLeg {operationType status : String} {account value : Int64} {d : Draft}
    (h : Draft.ofLeg operationType status ⟨account, .hbar value⟩ = .ok d) :
    d.amount = .hbar value := by
  obtain ⟨-, hamount, -⟩ := ofLeg_eq_ok h
  exact (Except.ok.inj hamount).symm

theorem amount_of_tokenLeg {operationType status : String} {account column value : Int64}
    {decimals : UInt32} {tokenType : TokenType} {serialNumbers : List Int64} {d : Draft}
    (h : Draft.ofLeg operationType status
      ⟨account, .token column decimals tokenType value serialNumbers⟩ = .ok d) :
    ∃ tokenId, column = tokenId.encode ∧
      d.amount = .token { tokenId, decimals, tokenType, value, serialNumbers } := by
  obtain ⟨-, hamount, -⟩ := ofLeg_eq_ok h
  simp only [Movement.amount, bind_eq_ok, pure_eq_ok] at hamount
  obtain ⟨tokenId, hdecode, htoken⟩ := hamount
  exact ⟨tokenId, EntityId.decode_eq_ok_iff.1 hdecode, htoken.symm⟩

theorem sum_measured_eq_zero {drafts : List Draft} (h : ∀ d ∈ drafts, d.measured w = 0) :
    (drafts.map (Draft.measured w)).sum = 0 := by
  rw [List.map_congr_left h]
  simp

theorem sum_numberFrom (start : Nat) (drafts : List Draft) :
    ((Draft.numberFrom start drafts).map (Operation.measured w)).sum =
      (drafts.map (Draft.measured w)).sum := by
  induction drafts generalizing start with
  | nil => rfl
  | cons d drafts ih =>
    rw [Draft.numberFrom, List.map_cons, List.sum_cons, ih, List.map_cons, List.sum_cons]
    rfl

namespace Assembler

variable {a : Assembler} {row : TransactionRow} {rows : List TransactionRow}

theorem rowDrafts_eq_ok {drafts : List Draft} (h : a.rowDrafts row = .ok drafts) :
    ∃ itemized rewards fees feeDrafts rewardDrafts tokens serials definition,
      ((a.nonFeeTransfers row).mapM fun t =>
        Draft.ofLeg (a.codes.transactionType row.transactionType) (a.codes.result row.result)
          t.leg) = .ok itemized ∧
      (a.rewardTransfers row : Outcome LedgerError _) = .ok rewards ∧
      (row.fees ((if row.succeeded then a.nonFeeTransfers row else []) ++ rewards) :
        Outcome LedgerError _) = .ok fees ∧
      (fees.mapM fun t => Draft.ofLeg CodeBook.feeType CodeBook.successStatus t.leg) =
        .ok feeDrafts ∧
      (rewards.mapM fun t => Draft.ofLeg CodeBook.rewardType CodeBook.successStatus t.leg) =
        .ok rewardDrafts ∧
      ((row.tokenTransfers.filter fun t => t.tokenType = .fungibleCommon).mapM fun t =>
        Draft.ofLeg (a.codes.transactionType row.transactionType) (a.codes.result row.result)
          t.leg) = .ok tokens ∧
      ((row.nftTransfers.flatMap NftTransfer.legs).mapM fun l =>
        Draft.ofLeg (a.codes.transactionType row.transactionType) (a.codes.result row.result)
          l.leg) = .ok serials ∧
      a.definitionDrafts row = .ok definition ∧
      itemized ++ feeDrafts ++ rewardDrafts ++ tokens ++ serials ++ definition = drafts := by
  simp only [rowDrafts, bind_eq_ok, pure_eq_ok] at h
  obtain ⟨itemized, hitemized, rewards, hrewards, fees, hfees, feeDrafts, hfeeDrafts,
    rewardDrafts, hrewardDrafts, tokens, htokens, serials, hserials, definition, hdefinition,
    rfl⟩ := h
  exact ⟨itemized, rewards, fees, feeDrafts, rewardDrafts, tokens, serials, definition, hitemized,
    hrewards, hfees, hfeeDrafts, hrewardDrafts, htokens, hserials, hdefinition, rfl⟩

theorem of_mem_definitionDrafts {drafts : List Draft} (h : a.definitionDrafts row = .ok drafts) :
    ∀ d ∈ drafts, d.operationType = a.codes.transactionType row.transactionType ∧
      ∃ amount, d.amount = .token amount ∧ amount.value = 0 := by
  unfold definitionDrafts at h
  split at h
  · rw [pure_eq_ok] at h
    simp [← h]
  · split at h
    · simp only [bind_eq_ok, pure_eq_ok] at h
      obtain ⟨account, -, tokenId, -, rfl⟩ := h
      intro d hd
      rw [List.mem_singleton.1 hd]
      exact ⟨rfl, _, rfl, rfl⟩
    · rw [pure_eq_ok] at h
      simp [← h]

section Assembled

variable {f : TransactionRow → Int}

theorem measured_build {t : Transaction} (h : a.build rows = .ok t)
    (hsome : ∃ row ∈ rows, row.succeeded)
    (hrows : ∀ row ∈ rows, ∀ drafts, a.rowDrafts row = .ok drafts →
      (drafts.map (Draft.measured w)).sum = f row) :
    t.measured w = (rows.map f).sum := by
  obtain ⟨first, others, primary, rfl, hprimary⟩ := exists_primary hsome
  obtain ⟨lists, entityId?, hlists, -, rfl⟩ := (build_eq_ok_iff hprimary).1 h
  rw [Transaction.measured, sum_numberFrom, List.map_flatten, List.sum_flatten, List.map_map]
  exact sum_map_of_mapM hlists hrows

theorem measured_assemble {transactions : List Transaction}
    (h : a.assemble rows = .ok transactions) (hsome : SomeTookEffect rows)
    (hrows : ∀ row ∈ rows, ∀ drafts, a.rowDrafts row = .ok drafts →
      (drafts.map (Draft.measured w)).sum = f row) :
    (transactions.map (Transaction.measured w)).sum = (rows.map f).sum := by
  rw [assemble_eq] at h
  rw [← sum_rowsOf f rows]
  refine sum_map_of_mapM h fun hash hhash t ht => ?_
  obtain ⟨row, hrow, rfl⟩ := mem_firstHashes.1 hhash
  have hmem : ∀ other, other ∈ rowsOf rows row.hash ↔ other ∈ rows ∧ other.hash = row.hash := by
    intro other
    rw [rowsOf, List.mem_filter, decide_eq_true_iff]
  refine measured_build ht ?_ fun other hother => hrows other ((hmem other).1 hother).1
  obtain ⟨other, hother, hsame, hsucceeded⟩ := hsome row hrow
  exact ⟨other, (hmem other).2 ⟨hother, hsame⟩, hsucceeded⟩

end Assembled

end Assembler

theorem sum_flatMap_operations (transactions : List Transaction) :
    ((transactions.flatMap Transaction.operations).map (Operation.measured w)).sum =
      (transactions.map (Transaction.measured w)).sum := by
  rw [List.map_flatMap, List.flatMap_def, List.sum_flatten, List.map_map]
  rfl

/-! ## Values -/

theorem sum_map_filter {α : Type} (p : α → Bool) (f : α → Int) (xs : List α) :
    ((xs.filter p).map f).sum = (xs.map fun x => if p x then f x else 0).sum := by
  rw [List.sum_map_ite (fun x => p x = true) f (fun _ => 0)]
  simp

/-- The value of an amount, where it counts. -/
def valueWhere (counts : String → EntityId → Amount → Bool) : Measure :=
  fun status account amount => if counts status account amount then amount.value.toInt else 0

/-- The exact sum of the values of the operations that count. -/
def totalValue (counts : String → EntityId → Amount → Bool) (transactions : List Transaction) :
    Int :=
  (((transactions.flatMap Transaction.operations).filter fun op =>
    counts op.status op.account op.amount).map fun op => op.amount.value.toInt).sum

theorem totalValue_eq (counts : String → EntityId → Amount → Bool)
    (transactions : List Transaction) :
    totalValue counts transactions =
      (transactions.map (Transaction.measured (valueWhere counts))).sum := by
  rw [totalValue, sum_map_filter, ← sum_flatMap_operations]
  rfl

end LedgerView
