import Mathlib
import LedgerView.Proofs.Assembly
import LedgerView.Proofs.BlockHash
import LedgerView.Proofs.Scan
import LedgerView.Proofs.Waits
/-!
# Transactions of a range and by hash

A range reads its rows page by page and groups them by hash; a look-up by hash reads the rows of
one hash at once. Both present each row in the same way and keep the rows of a hash in their
order, so a look-up finds exactly what the range shows for the hash, and nothing where the range
shows nothing.
-/

namespace LedgerView

/-! ## Groups and their transactions -/

namespace Assembler

variable {a : Assembler} {rows : List TransactionRow} {transactions : List Transaction}

theorem build_of_mem_assemble (h : a.assemble rows = .ok transactions) :
    ∀ x ∈ transactions, ∃ hash, x.hash = Text.prefixedHex hash ∧ rowsOf rows hash ≠ [] ∧
      a.build (rowsOf rows hash) = .ok x := by
  rw [assemble_eq] at h
  refine forall_mem_of_mapM h fun hash hhash x hx => ?_
  obtain ⟨row, hrow, hsame⟩ := mem_firstHashes.1 hhash
  refine ⟨hash, hash_of_build hx fun _ => hash_of_mem_rowsOf, ?_, hx⟩
  exact List.ne_nil_of_mem (List.mem_filter.2 ⟨hrow, decide_eq_true hsame⟩)

theorem exists_mem_of_assemble (h : a.assemble rows = .ok transactions) :
    ∀ row ∈ rows, ∃ x ∈ transactions, x.hash = Text.prefixedHex row.hash := by
  intro row hrow
  rw [assemble_eq] at h
  obtain ⟨x, hx, hbuild⟩ := exists_mem_of_mapM h _ (mem_firstHashes.2 ⟨row, hrow, rfl⟩)
  exact ⟨x, hx, hash_of_build hbuild fun _ => hash_of_mem_rowsOf⟩

theorem assemble_of_hash {hash : Bytes} {t : Transaction} (hne : rows ≠ [])
    (hrows : ∀ row ∈ rows, row.hash = hash) (h : a.build rows = .ok t) :
    a.assemble rows = .ok [t] := by
  rw [assemble, groupByHash_of_hash hne hrows]
  exact mapM_cons_eq_ok.2 ⟨t, [], h, mapM_nil_eq_ok.2 rfl, rfl⟩

theorem rowsOf_map_presented (s : Store) (hash : Bytes) :
    rowsOf (rows.map s.presented) hash = (rowsOf rows hash).map s.presented := by
  rw [rowsOf, rowsOf, List.filter_map]
  congr 1
  apply List.filter_congr
  intro row _
  simp only [Function.comp_apply, hash_presented]

end Assembler

/-! ## The two queries -/

section Queries

variable {s : Store} {a : Assembler} {start stop : Int64} {text : String} {hash : Bytes}

/-- The rows of a hash in a range, as they are stored. -/
def Store.rowsByHash (s : Store) (hash : Bytes) (start stop : Int64) : List TransactionRow :=
  Assembler.rowsOf (s.transactions.between start stop) hash

theorem rowsByHash_sublist : (s.rowsByHash hash start stop).Sublist s.transactions.items :=
  List.filter_sublist.trans List.filter_sublist

theorem transactionsByHash_eq :
    s.transactionsByHash hash start stop = (s.rowsByHash hash start stop).map s.liveRow := rfl

/-- The calls that completing rows takes: one, unless none of them needs it. -/
def correctionCalls (rows : List TransactionRow) : Nat :=
  if rows.filter TransactionRow.needsCorrection = [] then 0 else 1

theorem correctionCalls_le_of_sublist {rows all : List TransactionRow} (h : rows.Sublist all) :
    correctionCalls rows ≤ correctionCalls all := by
  have hneeded := h.filter TransactionRow.needsCorrection
  unfold correctionCalls
  split
  · exact Nat.zero_le _
  · next hsome =>
    rw [if_neg]
    intro hnone
    rw [hnone] at hneeded
    exact hsome (List.sublist_nil.1 hneeded)

theorem waits_correct (rows : List TransactionRow) (g : Option Block) :
    (Script.correct (rows.map s.liveRow)).waits s g = correctionCalls rows := by
  unfold Script.correct correctionCalls
  simp only [map_timestamp_filter_liveRow, List.map_eq_nil_iff]
  split <;> rfl

/-- A scan waits for a page and for the corrections, if there are any. Either all rows are on the
first page, or it waits for a second one. -/
theorem le_waits_scan (hdistinct : s.DistinctTimestamps) {batch : Nat} (hbatch : 0 < batch)
    (stop cursor : Int64) (gathered : List TransactionRow) (g : Option Block) :
    correctionCalls (s.transactions.between cursor stop) + 1 ≤
      (Script.scan batch stop cursor gathered).waits s g := by
  have hsub : ((s.transactions.between cursor stop).take batch).Sublist s.transactions.items :=
    (List.take_sublist batch _).trans List.filter_sublist
  have hcorrect : (Script.correct (s.transactionsInRange cursor stop batch)).eval s g =
      (.ok (((s.transactions.between cursor stop).take batch).map s.presented), g) :=
    eval_correct hdistinct hsub g
  have hwaits := waits_correct (s := s) ((s.transactions.between cursor stop).take batch) g
  rw [← Store.transactionsInRange] at hwaits
  rw [Script.scan_eq]
  simp only [Script.waits]
  rw [Script.waits_bind_of_eq hcorrect, hwaits]
  cases hend : pageEnd? (s.transactionsInRange cursor stop batch) batch stop with
  | none =>
    rw [take_eq_between hdistinct hbatch hend]
    omega
  | some last =>
    obtain ⟨_, hlt, -⟩ := pageEnd?_eq_some hend
    obtain ⟨next, hnext⟩ := exists_addChecked_one hlt
    simp only [hnext]
    rw [Script.scan_eq]
    have hone : correctionCalls (s.transactions.between cursor stop) ≤ 1 := by
      unfold correctionCalls
      split <;> omega
    simp only [Script.waits]
    omega

theorem transactionByHash_eq (hbytes : BlockHash.bytes text = .ok hash) (hrange : start ≤ stop) :
    Script.transactionByHash a text start stop =
      (Script.ask "transactions_by_hash" fun store =>
        store.transactionsByHash hash start stop).bind fun rows =>
          if rows = [] then Script.refuse (.notFound (.transaction text))
          else (Script.correct rows).bind fun rows =>
            (Script.done (a.assemble rows)).bind fun transactions =>
              Script.done
                (Outcome.ofOption (.notFound (.transaction text)) transactions.head?) := by
  rw [Script.transactionByHash, Script.check, hbytes, Script.checkRange,
    if_neg (Int64.not_lt.2 hrange)]
  rfl

theorem eval_transactionByHash_of_nil (hbytes : BlockHash.bytes text = .ok hash)
    (hrange : start ≤ stop) (hnone : s.rowsByHash hash start stop = []) (g : Option Block) :
    (Script.transactionByHash a text start stop).eval s g =
      (.error (.cause (.notFound (.transaction text))), g) := by
  rw [transactionByHash_eq hbytes hrange, Script.eval_bind_of_eq (Script.eval_ask ..),
    transactionsByHash_eq, hnone]
  rfl

theorem eval_transactionByHash_of_assemble (hdistinct : s.DistinctTimestamps) {t : Transaction}
    (hbytes : BlockHash.bytes text = .ok hash) (hrange : start ≤ stop)
    (h : a.assemble ((s.rowsByHash hash start stop).map s.presented) = .ok [t])
    (g : Option Block) :
    (Script.transactionByHash a text start stop).eval s g = (.ok t, g) := by
  have hne : (s.rowsByHash hash start stop).map s.liveRow ≠ [] := by
    rw [ne_eq, List.map_eq_nil_iff]
    intro hnil
    rw [hnil] at h
    cases h
  rw [transactionByHash_eq hbytes hrange, Script.eval_bind_of_eq (Script.eval_ask ..),
    transactionsByHash_eq, if_neg hne,
    Script.eval_bind_of_eq (eval_correct hdistinct rowsByHash_sublist g), h]
  rfl

theorem waits_transactionByHash_le (hdistinct : s.DistinctTimestamps) {batch : Nat}
    (hbatch : 0 < batch) (hbytes : BlockHash.bytes text = .ok hash) (hrange : start ≤ stop)
    (g : Option Block) :
    (Script.transactionByHash a text start stop).waits s g ≤
      (Script.transactions a batch start stop).waits s g := by
  have hscan := le_waits_scan hdistinct hbatch stop start [] g
  have hcheck : (Script.checkRange start stop).eval s g = (.ok (), g) := by
    rw [Script.checkRange, if_neg (Int64.not_lt.2 hrange)]
    rfl
  have hassemble : ∀ (rows : List TransactionRow) g',
      ((Script.done (a.assemble rows)).bind fun transactions =>
        Script.done (Outcome.ofOption (.notFound (.transaction text)) transactions.head?)).waits
          s g' = 0 := by
    intro rows g'
    rw [Script.waits_bind_of_zero fun _ _ => rfl]
    rfl
  have htransactions : (Script.transactions a batch start stop).waits s g =
      (Script.scan batch stop start []).waits s g := by
    simp only [Script.transactions, Script.bind_eq]
    rw [Script.waits_bind_of_eq hcheck, Script.waits_bind_of_zero fun _ _ => rfl,
      Script.checkRange, if_neg (Int64.not_lt.2 hrange)]
    exact Nat.zero_add _
  rw [htransactions, transactionByHash_eq hbytes hrange,
    Script.waits_bind_of_eq (Script.eval_ask ..), transactionsByHash_eq]
  have hcalls : correctionCalls (s.rowsByHash hash start stop) ≤
      correctionCalls (s.transactions.between start stop) :=
    correctionCalls_le_of_sublist List.filter_sublist
  split
  · simp only [Script.waits, Script.ask, Script.refuse]
    omega
  · rw [Script.waits_bind_of_zero hassemble, waits_correct]
    simp only [Script.waits, Script.ask]
    omega

end Queries

/-! ## Agreement -/

section Agreement

variable {s : Store} {settings : Settings} {start stop : Int64} {transactions : List Transaction}

/-- A transaction that a range shows is found by every text that writes its hash, and a hash that
the range does not show is not found. -/
theorem transactionByHash_agrees (hbatch : 0 < settings.batch) (hdistinct : s.DistinctTimestamps)
    (hrange : start ≤ stop)
    (h : s.Answers settings (.transactions start stop) (.transactions transactions))
    {n : Node} {context : RequestContext} (hstore : n.store = s) (hsettings : n.settings = settings)
    (hcalls : n.Quiet ∨
      (n.ask context (.transactions start stop)).1 = .ok (.transactions transactions)) :
    (∀ x ∈ transactions, x.hash ≠ "0x" → ∀ text, BlockHash.Spells text x.hash →
      (n.ask context (.transactionByHash text start stop)).1 = .ok (.transaction x)) ∧
    ∀ text digits, BlockHash.Writes text digits → BlockHash.IsDigits digits →
      (∀ x ∈ transactions, x.hash ≠ String.ofList ('0' :: 'x' :: digits)) →
      (n.ask context (.transactionByHash text start stop)).1 =
        .error (.cause (.notFound (.transaction text))) := by
  subst hstore hsettings
  have hassemble := assemble_of_answers hbatch hdistinct hrange h
  have hask : ∀ text hash, BlockHash.bytes text = .ok hash →
      (n.ask context (.transactionByHash text start stop)).1 =
        ((n.settings.script (.transactionByHash text start stop)).eval n.store n.genesis?).1 := by
    intro text hash hbytes
    refine (Node.ask_of_permits ?_).1
    rcases hcalls with hquiet | hanswer
    · exact hquiet.permits _
    · -- the look-up waits no more often than the query that has just come back
      refine Script.permits_of_le ?_ (Node.permits_of_ask hanswer)
      simp only [Settings.script, Script.bind_eq]
      rw [Script.waits_bind_of_zero fun _ _ => rfl, Script.waits_bind_of_zero fun _ _ => rfl]
      exact waits_transactionByHash_le hdistinct hbatch hbytes hrange n.genesis?
  constructor
  · rintro x hx hne text ⟨digits, hwrites, hshown⟩
    obtain ⟨hash, hhash, hrows, hbuild⟩ := Assembler.build_of_mem_assemble hassemble x hx
    have hbytes : BlockHash.bytes text = .ok hash := by
      have hdigits : '0' :: 'x' :: digits = '0' :: 'x' :: Text.encodeHex hash :=
        String.ofList_injective (hshown.symm.trans hhash)
      cases hdigits
      refine BlockHash.bytes_eq_ok_iff.2 ⟨hwrites, ?_⟩
      rintro rfl
      exact hne hhash
    have hsingle : n.settings.assembler.assemble
        ((n.store.rowsByHash hash start stop).map n.store.presented) = .ok [x] := by
      rw [Store.rowsByHash, ← Assembler.rowsOf_map_presented]
      exact Assembler.assemble_of_hash hrows (fun _ => Assembler.hash_of_mem_rowsOf) hbuild
    rw [hask text hash hbytes]
    simp only [Settings.script, Script.bind_eq]
    rw [Script.eval_bind_of_eq
      (eval_transactionByHash_of_assemble hdistinct hbytes hrange hsingle n.genesis?)]
    rfl
  · intro text digits hwrites hdigits habsent
    obtain ⟨hash, hne, rfl⟩ := BlockHash.exists_encodeHex_of_writes hwrites hdigits
    have hbytes := BlockHash.bytes_eq_ok_iff.2 ⟨hwrites, hne⟩
    have hnone : n.store.rowsByHash hash start stop = [] := by
      by_contra hsome
      obtain ⟨row, hrow⟩ := List.exists_mem_of_ne_nil _ hsome
      obtain ⟨x, hx, hshown⟩ := Assembler.exists_mem_of_assemble hassemble (n.store.presented row)
        (List.mem_map_of_mem (List.mem_filter.1 hrow).1)
      rw [hash_presented, Assembler.hash_of_mem_rowsOf hrow] at hshown
      exact habsent x hx hshown
    rw [hask text hash hbytes]
    simp only [Settings.script, Script.bind_eq]
    rw [Script.eval_bind, eval_transactionByHash_of_nil hbytes hrange hnone]

end Agreement

/-- Two rows share a hash. Between them a token that is deleted since was dissociated. -/
private def sharedStore : Store :=
  let row : TransactionRow :=
    { consensusTimestamp := 10, hash := [0xab], transactionType := 14, result := 22, payer := 1001,
      entity? := none, memo := [], cryptoTransfers := [⟨1001, -5, none⟩, ⟨98, 5, none⟩],
      itemizedTransfers := [], tokenTransfers := [⟨1001, 2000, -7, 2, .fungibleCommon⟩],
      nftTransfers := [], stakingRewards := [], token? := none }
  Store.ingestAll {} [
    .token ⟨2000, 2, .fungibleCommon, false, 100⟩,
    .transaction row,
    .transaction { row with consensusTimestamp := 20, hash := [0xcd], transactionType := 41 },
    .transaction { row with consensusTimestamp := 30, memo := [1] },
    .deleteToken (.numbered 2000)]

private def sharedNode : Node :=
  { store := sharedStore, settings := ⟨{ LedgerConfig.standard with batchSize := 1 }, .standard⟩ }

private def sharedTransactions : List Transaction :=
  match (sharedNode.ask .background (.transactions 10 30)).1 with
  | .ok (.transactions transactions) => transactions
  | _ => []

theorem transactionByHash_agrees_shared :
    sharedTransactions.map (fun x => (x.hash, x.operations.length)) =
        [("0xab", 4), ("0xcd", 3)] ∧
      (∀ x ∈ sharedTransactions, x.hash ≠ "0x" → ∀ text, BlockHash.Spells text x.hash →
        (sharedNode.ask .background (.transactionByHash text 10 30)).1 = .ok (.transaction x)) ∧
      BlockHash.Spells " 0XAB" "0xab" ∧ BlockHash.Spells "cD " "0xcd" ∧
      (sharedNode.ask .background (.transactionByHash "ef" 10 30)).1 =
        .error (.cause (.notFound (.transaction "ef"))) := by
  have hanswer : (sharedNode.ask .background (.transactions 10 30)).1 =
      .ok (.transactions sharedTransactions) := by decide +kernel
  obtain ⟨hfound, hnone⟩ := transactionByHash_agrees (by decide) (by decide) (by decide)
    ⟨sharedNode, .background, rfl, rfl, hanswer⟩ rfl rfl (.inr hanswer)
  have hwrites : ∀ text digits, BlockHash.normalChars text = .ok digits →
      BlockHash.Writes text digits ∧ BlockHash.IsDigits digits :=
    fun _ _ => BlockHash.normalChars_eq_ok_iff.1
  refine ⟨by decide +kernel, hfound, ?_, ?_, ?_⟩
  · exact ⟨['a', 'b'], (hwrites _ _ (by decide)).1, rfl⟩
  · exact ⟨['c', 'd'], (hwrites _ _ (by decide)).1, rfl⟩
  · obtain ⟨htext, hdigits⟩ := hwrites "ef" ['e', 'f'] (by decide)
    exact hnone "ef" _ htext hdigits (by decide +kernel)

end LedgerView
