import Mathlib
import LedgerView.Proofs.Presentation
/-!
# Scans page by page

A scan reads a range in pages, corrects each page by itself and goes on right after the last
timestamp of a full page. If no two rows have one timestamp, the pages put together are the rows
of the range, each presented as it would be by a single unbounded read. What a range of
transactions comes to is therefore the same for every page size.
-/

namespace LedgerView

theorem exists_addChecked_one {last stop : Int64} (h : last < stop) :
    ∃ next, (addChecked last 1 : Outcome LedgerError Int64) = .ok next := by
  have hlt := Int64.lt_iff_toInt_lt.1 h
  have hmin := Int64.minValue_le_toInt last
  have hmax := Int64.toInt_le stop
  have hone : (1 : Int64).toInt = 1 := rfl
  refine ⟨Int64.ofInt (last.toInt + (1 : Int64).toInt), ?_⟩
  rw [addChecked, fit, if_pos]
  omega

theorem remaining_lt {s : Store} {batch : Nat} {cursor stop last next : Int64}
    (hend : pageEnd? (s.transactionsInRange cursor stop batch) batch stop = some last)
    (hnext : (addChecked last 1 : Outcome LedgerError Int64) = .ok next) :
    (stop.toInt - next.toInt).toNat < (stop.toInt - cursor.toInt).toNat := by
  obtain ⟨_, hlt, row, hrow, hts⟩ := pageEnd?_eq_some hend
  have hcursor : cursor.toInt ≤ last.toInt :=
    hts ▸ Int64.le_iff_toInt_le.1 (Store.le_of_mem_transactionsInRange hrow).1
  have hstop : last.toInt < stop.toInt := Int64.lt_iff_toInt_lt.1 hlt
  have hstep : next.toInt = last.toInt + 1 := addChecked_eq_ok_iff.1 hnext
  omega

section Range

variable {s : Store} {rows : List TransactionRow} {start stop last next : Int64}

theorem between_ascending (hdistinct : s.DistinctTimestamps) (start stop : Int64) :
    (s.transactions.between start stop).Pairwise fun a b =>
      a.consensusTimestamp.toInt < b.consensusTimestamp.toInt := by
  have hboth := List.Pairwise.and s.transactions.inOrder hdistinct
  refine (hboth.imp fun {a b} h => ?_).sublist List.filter_sublist
  have hle : a.consensusTimestamp.toInt ≤ b.consensusTimestamp.toInt :=
    Int64.le_iff_toInt_le.1 h.1
  have hne : a.consensusTimestamp.toInt ≠ b.consensusTimestamp.toInt :=
    fun heq => h.2 (Int64.toInt_inj.1 heq)
  omega

theorem mem_between {row : TransactionRow} :
    row ∈ s.transactions.between start stop ↔
      row ∈ s.transactions.items ∧
        start.toInt ≤ row.consensusTimestamp.toInt ∧ row.consensusTimestamp.toInt ≤ stop.toInt := by
  simp [Timeline.between, Timed.timestamp, Int64.le_iff_toInt_le]

theorem drop_eq_filter_of_ascending {batch : Nat} {row : TransactionRow}
    (hasc : rows.Pairwise fun a b =>
      a.consensusTimestamp.toInt < b.consensusTimestamp.toInt)
    (hlast : (rows.take batch).getLast? = some row) :
    rows.drop batch = rows.filter fun other =>
      row.consensusTimestamp.toInt < other.consensusTimestamp.toInt := by
  have hsplit := List.take_append_drop batch rows
  rw [← hsplit] at hasc
  obtain ⟨hfront, -, hcross⟩ := List.pairwise_append.1 hasc
  have hnone : ((rows.take batch).filter fun other =>
      row.consensusTimestamp.toInt < other.consensusTimestamp.toInt) = [] := by
    rw [List.filter_eq_nil_iff]
    intro other hother
    obtain ⟨init, hinit⟩ := List.getLast?_eq_some_iff.1 hlast
    rw [hinit] at hother hfront
    rcases List.mem_append.1 hother with hearlier | hrow
    · have hlt := (List.pairwise_append.1 hfront).2.2 other hearlier row (by simp)
      simp only [decide_eq_true_eq]
      omega
    · simp [List.mem_singleton.1 hrow]
  have hall : ((rows.drop batch).filter fun other =>
      row.consensusTimestamp.toInt < other.consensusTimestamp.toInt) = rows.drop batch := by
    rw [List.filter_eq_self]
    intro other hother
    simpa using hcross row (List.mem_of_getLast? hlast) other hother
  calc rows.drop batch
      = (rows.take batch ++ rows.drop batch).filter fun other =>
          row.consensusTimestamp.toInt < other.consensusTimestamp.toInt := by
        rw [List.filter_append, hnone, hall, List.nil_append]
    _ = _ := by rw [hsplit]

theorem between_of_next (hstart : start.toInt ≤ last.toInt)
    (hnext : next.toInt = last.toInt + 1) :
    s.transactions.between next stop =
      (s.transactions.between start stop).filter fun row =>
        last.toInt < row.consensusTimestamp.toInt := by
  rw [Timeline.between, Timeline.between, List.filter_filter]
  apply List.filter_congr
  intro row _
  simp only [Timed.timestamp, Int64.le_iff_toInt_le, ← Bool.decide_and, decide_eq_decide]
  omega

theorem le_of_pageEnd?_eq_none {batch : Nat} {row : TransactionRow}
    (hend : pageEnd? (rows.map s.liveRow) batch stop = none) (hfull : batch ≤ rows.length)
    (hrow : rows.getLast? = some row) : stop ≤ row.consensusTimestamp := by
  rw [pageEnd?, List.getLast?_map, hrow] at hend
  simp only [Option.map_some, List.length_map] at hend
  by_contra hlt
  rw [if_pos ⟨hfull, Int64.not_le.1 hlt⟩] at hend
  cases hend

theorem getLast?_of_pageEnd? {batch : Nat}
    (hend : pageEnd? (rows.map s.liveRow) batch stop = some last) :
    ∃ row, rows.getLast? = some row ∧ row.consensusTimestamp = last := by
  rw [pageEnd?, List.getLast?_map] at hend
  cases hlast : rows.getLast? with
  | none =>
    rw [hlast] at hend
    cases hend
  | some row =>
    rw [hlast] at hend
    simp only [Option.map_some, Option.ite_none_right_eq_some, Option.some.injEq] at hend
    exact ⟨row, rfl, hend.2⟩

theorem take_eq_between (hdistinct : s.DistinctTimestamps) {batch : Nat} (hbatch : 0 < batch)
    (hend : pageEnd? (s.transactionsInRange start stop batch) batch stop = none) :
    (s.transactions.between start stop).take batch = s.transactions.between start stop := by
  have hasc := between_ascending hdistinct start stop
  have hmem : ∀ row ∈ s.transactions.between start stop,
      row.consensusTimestamp.toInt ≤ stop.toInt := fun row hrow => (mem_between.1 hrow).2.2
  generalize hrange : s.transactions.between start stop = range at *
  by_cases hlen : range.length ≤ batch
  · exact List.take_of_length_le hlen
  -- a full page that is not followed by another ends at `stop`
  have hfull : (range.take batch).length = batch := by
    rw [List.length_take]
    omega
  have hne : range.take batch ≠ [] := by
    intro hnil
    rw [hnil] at hfull
    exact absurd hfull (by simpa using (Nat.ne_of_lt hbatch))
  obtain ⟨row, hrow⟩ : ∃ row, (range.take batch).getLast? = some row :=
    ⟨_, List.getLast?_eq_some_getLast hne⟩
  have hstop : stop.toInt ≤ row.consensusTimestamp.toInt := by
    rw [Store.transactionsInRange, hrange] at hend
    exact Int64.le_iff_toInt_le.1 (le_of_pageEnd?_eq_none hend hfull.ge hrow)
  have hdrop : range.drop batch = [] := by
    rw [drop_eq_filter_of_ascending hasc hrow, List.filter_eq_nil_iff]
    intro other hother
    have := hmem other hother
    simp only [decide_eq_true_eq]
    omega
  calc range.take batch = range.take batch ++ range.drop batch := by rw [hdrop, List.append_nil]
    _ = range := List.take_append_drop batch range

/-- A full page is followed by the rows from right after its last timestamp on. -/
theorem between_eq_append (hdistinct : s.DistinctTimestamps) {batch : Nat}
    (hend : pageEnd? (s.transactionsInRange start stop batch) batch stop = some last)
    (hnext : next.toInt = last.toInt + 1) :
    s.transactions.between start stop =
      (s.transactions.between start stop).take batch ++ s.transactions.between next stop := by
  have hasc := between_ascending hdistinct start stop
  obtain ⟨row, hrow, hts⟩ := getLast?_of_pageEnd? hend
  have hstart : start.toInt ≤ last.toInt := by
    have hmem := List.mem_of_mem_take (List.mem_of_getLast? hrow)
    exact hts ▸ (mem_between.1 hmem).2.1
  rw [between_of_next hstart hnext, ← hts, ← drop_eq_filter_of_ascending hasc hrow,
    List.take_append_drop]

end Range

section Queries

variable {s : Store} {batch : Nat}

/-- What a scan gathers: the rows of the range, whatever the size of the pages. The induction is
on what is left of the range. -/
theorem eval_scan (hdistinct : s.DistinctTimestamps) (hbatch : 0 < batch)
    (stop cursor : Int64) (gathered : List TransactionRow) (g : Option Block) :
    (Script.scan batch stop cursor gathered).eval s g =
      (.ok (gathered ++ (s.transactions.between cursor stop).map s.presented), g) := by
  have hsub : ((s.transactions.between cursor stop).take batch).Sublist s.transactions.items :=
    (List.take_sublist batch _).trans List.filter_sublist
  have hcorrect : (Script.correct (s.transactionsInRange cursor stop batch)).eval s g =
      (.ok (((s.transactions.between cursor stop).take batch).map s.presented), g) :=
    eval_correct hdistinct hsub g
  rw [Script.scan_eq]
  simp only [Script.eval]
  rw [Script.eval_bind_of_eq hcorrect]
  cases hend : pageEnd? (s.transactionsInRange cursor stop batch) batch stop with
  | none => rw [Script.eval_done, take_eq_between hdistinct hbatch hend]
  | some last =>
    obtain ⟨_, hlt, -⟩ := pageEnd?_eq_some hend
    obtain ⟨next, hnext⟩ := exists_addChecked_one hlt
    have hstep : next.toInt = last.toInt + 1 := addChecked_eq_ok_iff.1 hnext
    simp only [hnext]
    rw [eval_scan hdistinct hbatch stop next _ g, List.append_assoc, ← List.map_append,
      ← between_eq_append hdistinct hend hstep]
termination_by (stop.toInt - cursor.toInt).toNat
decreasing_by exact remaining_lt hend hnext

theorem eval_transactions (hdistinct : s.DistinctTimestamps) (hbatch : 0 < batch)
    (a : Assembler) {start stop : Int64} (hrange : start ≤ stop) (g : Option Block) :
    (Script.transactions a batch start stop).eval s g =
      (a.assemble ((s.transactions.between start stop).map s.presented), g) := by
  have hcheck : (Script.checkRange start stop).eval s g = (.ok (), g) := by
    rw [Script.checkRange, if_neg (Int64.not_lt.2 hrange)]
    rfl
  simp only [Script.transactions, Script.bind_eq]
  rw [Script.eval_bind_of_eq hcheck,
    Script.eval_bind_of_eq (eval_scan hdistinct hbatch stop start [] g)]
  rfl

theorem assemble_of_answers {settings : Settings} {start stop : Int64}
    {transactions : List Transaction} (hbatch : 0 < settings.batch)
    (hdistinct : s.DistinctTimestamps) (hrange : start ≤ stop)
    (h : s.Answers settings (.transactions start stop) (.transactions transactions)) :
    settings.assembler.assemble ((s.transactions.between start stop).map s.presented) =
      .ok transactions := by
  obtain ⟨g, hanswer⟩ := h.eval
  simp only [Settings.script, Script.bind_eq, Script.eval_bind_eq_ok,
    eval_transactions hdistinct hbatch settings.assembler hrange] at hanswer
  obtain ⟨reported, g', hassemble, hreported⟩ := hanswer
  cases hreported
  exact congrArg Prod.fst hassemble

/-- A range of transactions is what assembling its rows, each as it is presented, gives: the same
transactions or the same error, and so the same for every page size. -/
theorem run_transactions_eq_assemble {around : Script.Surroundings}
    (hfailure : around.failure? = none) (hlatency : around.latency = 0)
    (hdistinct : around.store.DistinctTimestamps) (hbatch : 0 < batch) (a : Assembler)
    {start stop : Int64} (hrange : start ≤ stop) (p : Script.Progress) :
    ((Script.transactions a batch start stop).run around p).1 =
        a.assemble
          ((around.store.transactions.between start stop).map around.store.presented) ∧
      ∀ other, 0 < other →
        ((Script.transactions a other start stop).run around p).1 =
          ((Script.transactions a batch start stop).run around p).1 := by
  have hassemble : ∀ size, 0 < size →
      ((Script.transactions a size start stop).run around p).1 =
        a.assemble
          ((around.store.transactions.between start stop).map around.store.presented) := by
    intro size hsize
    rw [Script.run_of_quiet hfailure hlatency, eval_transactions hdistinct hsize a hrange]
  refine ⟨hassemble batch hbatch, fun other hother => ?_⟩
  rw [hassemble other hother, hassemble batch hbatch]

end Queries

/-- Token 2000 is deleted. It moved in a plain transfer and in the dissociation that came
after it. -/
private def dissociatedStore : Store :=
  let row : TransactionRow :=
    { consensusTimestamp := 10, hash := [1], transactionType := 14, result := 22, payer := 1001,
      entity? := none, memo := [], cryptoTransfers := [⟨1001, -5, none⟩, ⟨98, 5, none⟩],
      itemizedTransfers := [], tokenTransfers := [⟨1001, 2000, -7, 2, .fungibleCommon⟩],
      nftTransfers := [], stakingRewards := [], token? := none }
  Store.ingestAll {} [
    .token ⟨2000, 2, .fungibleCommon, false, 100⟩,
    .transaction { row with consensusTimestamp := 30, hash := [3] },
    .transaction row,
    .transaction { row with consensusTimestamp := 20, hash := [2], transactionType := 41 },
    .deleteToken (.numbered 2000)]

theorem run_transactions_eq_assemble_dissociated :
    dissociatedStore.DistinctTimestamps ∧
      (dissociatedStore.transactions.between 10 30).map
          (fun row => (dissociatedStore.presented row).tokenTransfers.length) = [0, 1, 0] ∧
      ((Script.transactions ⟨.standard, 800⟩ 1 10 30).run ⟨dissociatedStore, none, 0, 0⟩ {}).1 =
        Assembler.assemble ⟨.standard, 800⟩
          ((dissociatedStore.transactions.between 10 30).map dissociatedStore.presented) := by
  refine ⟨by decide, by decide, ?_⟩
  exact (run_transactions_eq_assemble rfl rfl (by decide) (by decide) ⟨.standard, 800⟩
    (by decide) {}).1

end LedgerView
