import Mathlib
import LedgerView.Proofs.EntityId
import LedgerView.Proofs.Grouping
/-!
# Rows and their transactions

A transaction is built from its rows one after the other, so that rows which follow others have
their operations behind those of the others, numbered on (`build_append`). Which rows make up a
transaction is decided by their hash alone: there is one transaction for every hash, by first
appearance, and it is built from all rows of the hash in the order in which they came
(`assemble_by_hash`).
-/

namespace LedgerView

/-! ## Numbers of operations -/

/-- The operation with its number moved on. -/
def Operation.shift (count : Nat) (op : Operation) : Operation :=
  { op with index := op.index + Int64.ofNat count }

/-- The operations of another transaction behind those of this one, numbered on. -/
def Transaction.followedBy (t other : Transaction) : Transaction :=
  { t with
    operations := t.operations ++ other.operations.map (Operation.shift t.operations.length) }

namespace Draft

@[simp] theorem length_numberFrom (start : Nat) (drafts : List Draft) :
    (numberFrom start drafts).length = drafts.length := by
  induction drafts generalizing start with
  | nil => rfl
  | cons d drafts ih => rw [numberFrom, List.length_cons, ih, List.length_cons]

theorem numberFrom_append (start : Nat) (drafts others : List Draft) :
    numberFrom start (drafts ++ others) =
      numberFrom start drafts ++ numberFrom (start + drafts.length) others := by
  induction drafts generalizing start with
  | nil => rfl
  | cons d drafts ih =>
    have hlength : start + 1 + drafts.length = start + (d :: drafts).length := by
      rw [List.length_cons]
      omega
    rw [List.cons_append, numberFrom, ih, numberFrom, List.cons_append, hlength]

theorem numberFrom_add (start count : Nat) (drafts : List Draft) :
    numberFrom (start + count) drafts = (numberFrom start drafts).map (Operation.shift count) := by
  induction drafts generalizing start with
  | nil => rfl
  | cons d drafts ih =>
    have hfirst : d.numbered (start + count) = (d.numbered start).shift count := by
      rw [numbered, Int64.ofNat_add]
      rfl
    rw [numberFrom, numberFrom, List.map_cons, hfirst, Nat.add_right_comm, ih]

theorem index_numberFrom (start : Nat) (drafts : List Draft) :
    (numberFrom start drafts).map Operation.index =
      (List.range' start drafts.length).map Int64.ofNat := by
  induction drafts generalizing start with
  | nil => rfl
  | cons d drafts ih =>
    rw [numberFrom, List.map_cons, ih, List.length_cons, List.range'_succ, List.map_cons]
    rfl

end Draft

/-! ## One transaction -/

namespace Assembler

variable {a : Assembler} {rows : List TransactionRow} {t : Transaction}

/-- Whether or not any of its rows took effect, a transaction has the hash of the first one and
numbers its operations from zero. -/
theorem exists_of_build (h : a.build rows = .ok t) :
    ∃ first others drafts, rows = first :: others ∧ t.hash = Text.prefixedHex first.hash ∧
      t.operations = Draft.numberFrom 0 drafts := by
  cases rows with
  | nil => cases h
  | cons first others =>
    cases hprimary : (first :: others).find? TransactionRow.succeeded with
    | none =>
      simp only [build, hprimary, bind_eq_ok, pure_eq_ok] at h
      obtain ⟨drafts, -, entityId?, -, rfl⟩ := h
      exact ⟨first, others, drafts, rfl, rfl, rfl⟩
    | some primary =>
      simp only [build, hprimary, bind_eq_ok, pure_eq_ok] at h
      obtain ⟨drafts, -, entityId?, -, rfl⟩ := h
      exact ⟨first, others, drafts, rfl, rfl, rfl⟩

theorem hash_of_build {hash : Bytes} (h : a.build rows = .ok t)
    (hrows : ∀ row ∈ rows, row.hash = hash) : t.hash = Text.prefixedHex hash := by
  obtain ⟨first, others, drafts, rfl, hhash, -⟩ := exists_of_build h
  rw [hhash, hrows first List.mem_cons_self]

theorem index_of_build (h : a.build rows = .ok t) :
    t.operations.map Operation.index = (List.range t.operations.length).map Int64.ofNat := by
  obtain ⟨first, others, drafts, -, -, hoperations⟩ := exists_of_build h
  rw [hoperations, Draft.index_numberFrom, Draft.length_numberFrom, List.range_eq_range']

theorem exists_primary (hsome : ∃ row ∈ rows, row.succeeded) :
    ∃ first others primary, rows = first :: others ∧
      (first :: others).find? TransactionRow.succeeded = some primary := by
  obtain ⟨row, hrow, hsucceeded⟩ := hsome
  obtain ⟨primary, hprimary⟩ : ∃ primary, rows.find? TransactionRow.succeeded = some primary :=
    Option.isSome_iff_exists.1 (List.find?_isSome.2 ⟨row, hrow, hsucceeded⟩)
  cases rows with
  | nil => cases hrow
  | cons first others => exact ⟨first, others, primary, rfl, hprimary⟩

theorem build_eq_ok_iff {first primary : TransactionRow} {others : List TransactionRow}
    (hprimary : (first :: others).find? TransactionRow.succeeded = some primary) :
    a.build (first :: others) = .ok t ↔
      ∃ lists entityId?, (first :: others).mapM a.rowDrafts = .ok lists ∧
        primary.entity?.mapM decodeColumn = .ok entityId? ∧
        t = { hash := Text.prefixedHex first.hash
              entityId?
              memo := primary.memo
              operations := Draft.numberFrom 0 lists.flatten } := by
  simp only [build, hprimary, bind_eq_ok, pure_eq_ok, map_eq_ok, Option.getD_some]
  constructor
  · rintro ⟨_, ⟨lists, hlists, rfl⟩, entityId?, hentity, rfl⟩
    exact ⟨lists, entityId?, hlists, hentity, rfl⟩
  · rintro ⟨lists, entityId?, hlists, hentity, rfl⟩
    exact ⟨lists.flatten, ⟨lists, hlists, rfl⟩, entityId?, hentity, rfl⟩

/-- The transaction of rows that follow others shows the operations of both, numbered through, and
is otherwise that of the first ones. -/
theorem build_append {g₁ g₂ : List TransactionRow} {t₁ t₂ : Transaction}
    (hsome₁ : ∃ row ∈ g₁, row.succeeded) (hsome₂ : ∃ row ∈ g₂, row.succeeded)
    (h₁ : a.build g₁ = .ok t₁) (h₂ : a.build g₂ = .ok t₂) :
    a.build (g₁ ++ g₂) = .ok (t₁.followedBy t₂) ∧
      (t₁.followedBy t₂).operations.map Operation.index =
        (List.range (t₁.followedBy t₂).operations.length).map Int64.ofNat := by
  obtain ⟨first, others, primary, rfl, hprimary⟩ := exists_primary hsome₁
  obtain ⟨first', others', primary', rfl, hprimary'⟩ := exists_primary hsome₂
  obtain ⟨lists, entityId?, hlists, hentity, ht₁⟩ := (build_eq_ok_iff hprimary).1 h₁
  obtain ⟨lists', entityId?', hlists', -, ht₂⟩ := (build_eq_ok_iff hprimary').1 h₂
  have hsame : (first :: (others ++ first' :: others')).find? TransactionRow.succeeded =
      some primary := by
    rw [← List.cons_append, List.find?_append, hprimary]
    rfl
  have hboth : (first :: (others ++ first' :: others')).mapM a.rowDrafts =
      .ok (lists ++ lists') := by
    rw [← List.cons_append, List.mapM_append, hlists, hlists']
    rfl
  have hoperations : (t₁.followedBy t₂).operations =
      Draft.numberFrom 0 (lists ++ lists').flatten := by
    rw [List.flatten_append, Draft.numberFrom_append, Draft.numberFrom_add, ht₁, ht₂,
      Transaction.followedBy, Draft.length_numberFrom]
  have hbuild : a.build (first :: others ++ first' :: others') = .ok (t₁.followedBy t₂) := by
    refine (build_eq_ok_iff hsame).2 ⟨lists ++ lists', entityId?, hboth, hentity, ?_⟩
    rw [← hoperations, ht₁]
    rfl
  exact ⟨hbuild, index_of_build hbuild⟩

/-- An attempt to do something at a fee of 2. -/
private def attempt (timestamp : Int64) (hash : Bytes) (result : Int32) : TransactionRow :=
  { consensusTimestamp := timestamp, hash, transactionType := 14, result, payer := 1001,
    entity? := some 2000, memo := hash, cryptoTransfers := [⟨1001, -2, none⟩, ⟨98, 2, none⟩],
    itemizedTransfers := [], tokenTransfers := [], nftTransfers := [], stakingRewards := [],
    token? := none }

/-- Two attempts, the second of which succeeds. -/
private def attempts (hash : Bytes) : List TransactionRow :=
  [attempt 10 hash 10, attempt 11 hash 22]

private def attemptsTransaction (hash : Bytes) : Transaction :=
  { hash := Text.prefixedHex hash, entityId? := some (.numbered 2000), memo := hash,
    operations := [
      ⟨0, "FEE", "SUCCESS", .numbered 1001, .hbar (-2), none⟩,
      ⟨1, "FEE", "SUCCESS", .numbered 98, .hbar 2, none⟩,
      ⟨2, "FEE", "SUCCESS", .numbered 1001, .hbar (-2), none⟩,
      ⟨3, "FEE", "SUCCESS", .numbered 98, .hbar 2, none⟩] }

theorem build_append_attempts :
    build ⟨.standard, 800⟩ (attempts [1] ++ attempts [2]) =
        .ok ((attemptsTransaction [1]).followedBy (attemptsTransaction [2])) ∧
      ((attemptsTransaction [1]).followedBy (attemptsTransaction [2])).operations.map
        Operation.index = [0, 1, 2, 3, 4, 5, 6, 7] :=
  build_append (by decide) (by decide) (by decide +kernel) (by decide +kernel)

/-! ## All transactions -/

/-- Transactions in the order in which the hashes of the rows first came up, each of them built from
all rows of its hash. -/
def BuiltByHash (a : Assembler) (rows : List TransactionRow) (transactions : List Transaction) :
    Prop :=
  List.Forall₂
    (fun hash t => t.hash = Text.prefixedHex hash ∧ a.build (rowsOf rows hash) = .ok t)
    (firstHashes rows) transactions

/-- The error of the first hash whose rows make up no transaction. -/
def FailsFirst (a : Assembler) (rows : List TransactionRow) (e : Failure LedgerError) : Prop :=
  ∃ before hash after, firstHashes rows = before ++ hash :: after ∧
    (∀ earlier ∈ before, ∃ t, a.build (rowsOf rows earlier) = .ok t) ∧
      a.build (rowsOf rows hash) = .error e

theorem hash_of_mem_rowsOf {hash : Bytes} {row : TransactionRow} (h : row ∈ rowsOf rows hash) :
    row.hash = hash :=
  of_decide_eq_true (List.mem_filter.1 h).2

theorem assemble_eq (a : Assembler) (rows : List TransactionRow) :
    a.assemble rows = (firstHashes rows).mapM fun hash => a.build (rowsOf rows hash) := by
  rw [assemble, groupByHash_eq, List.mapM_map]
  rfl

theorem assemble_eq_ok_iff {transactions : List Transaction} :
    a.assemble rows = .ok transactions ↔ a.BuiltByHash rows transactions := by
  rw [assemble_eq, mapM_eq_ok_iff, BuiltByHash]
  constructor
  · intro h
    refine h.imp fun hash t hbuild => ⟨?_, hbuild⟩
    exact hash_of_build hbuild fun _ => hash_of_mem_rowsOf
  · intro h
    exact h.imp fun _ _ hbuilt => hbuilt.2

/-- Rows are parted by their hashes. The transactions are those of the parts, and if some part has
no transaction the first such part decides on the error. The hashes are the ones that rows have,
each listed once and in the order in which they first came up; every row is in one part, and rows
with the same parts in the same order come to the same. -/
theorem assemble_by_hash (a : Assembler) (rows : List TransactionRow) :
    (∀ transactions, a.assemble rows = .ok transactions ↔ a.BuiltByHash rows transactions) ∧
      (∀ e, a.assemble rows = .error e ↔ a.FailsFirst rows e) ∧
      (∀ hash, hash ∈ firstHashes rows ↔ ∃ row ∈ rows, row.hash = hash) ∧
      ((firstHashes rows).Pairwise fun x y =>
        (rows.map TransactionRow.hash).idxOf x < (rows.map TransactionRow.hash).idxOf y) ∧
      ((firstHashes rows).flatMap (rowsOf rows)).Perm rows ∧
      ∀ others, firstHashes others = firstHashes rows →
        (∀ hash, rowsOf others hash = rowsOf rows hash) → a.assemble others = a.assemble rows := by
  refine ⟨fun transactions => assemble_eq_ok_iff, fun e => ?_, fun hash => mem_firstHashes,
    pairwise_firstHashes rows, perm_flatMap_rowsOf rows, ?_⟩
  · rw [assemble_eq, mapM_eq_error_iff]
    rfl
  · intro others hhashes hrows
    rw [assemble_eq, assemble_eq, hhashes]
    simp only [hrows]

theorem assemble_by_hash_mixed :
    assemble ⟨.standard, 800⟩ (attempts [1] ++ attempts [2]) =
      assemble ⟨.standard, 800⟩
        [attempt 10 [1] 10, attempt 10 [2] 10, attempt 11 [1] 22, attempt 11 [2] 22] := by
  refine (assemble_by_hash _ _).2.2.2.2.2 _ (by decide) fun hash => ?_
  by_cases h₁ : [1] = hash
  · subst h₁
    decide
  · by_cases h₂ : [2] = hash
    · subst h₂
      decide
    · simp [rowsOf, attempts, attempt, h₁, h₂]

end Assembler

end LedgerView
