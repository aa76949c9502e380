import Mathlib
import LedgerView.Proofs.Scan
import LedgerView.Proofs.Waits
/-!
# The pages of a scan over rows of equal timestamps

Rows may share a timestamp, and a scan goes on right after the last timestamp of a full page: the
rows that follow such a page with that timestamp are passed over. `Paged` describes the pages by
the positions of their rows in the window, and `run_scan` says that this is what every scan
gathers, and in how many pages.
-/

namespace LedgerView

/-! ## Counted events -/

namespace Script

variable {α β : Type}

/-- How often a script counts an event. -/
def counts (metric : Metric) (store : Store) : Script α → Option Block → Nat
  | done _, _ => 0
  | wait _ next, genesis? => (next store).counts metric store genesis?
  | count counted next, genesis? =>
    next.counts metric store genesis? + if counted = metric then 1 else 0
  | consult next, genesis? => (next genesis?).counts metric store genesis?
  | memoize genesis next, _ => next.counts metric store (some genesis)

theorem counts_bind_of_eq {metric : Metric} {store : Store} {script : Script α}
    {f : α → Script β} {g g' : Option Block} {a : α} (h : script.eval store g = (.ok a, g')) :
    (script.bind f).counts metric store g =
      script.counts metric store g + (f a).counts metric store g' := by
  induction script generalizing g with
  | done answer =>
    cases h
    exact (Nat.zero_add _).symm
  | wait operation next ih => exact ih store h
  | count counted next ih =>
    have hnext := ih h
    simp only [bind, counts, hnext]
    omega
  | consult next ih => exact ih g h
  | memoize genesis next ih => exact ih h

theorem count_of_run {metric : Metric} {around : Surroundings} {script : Script α} {p : Progress}
    {a : α} (h : (script.run around p).1 = .ok a) :
    (script.run around p).2.metrics.count metric =
      p.metrics.count metric + script.counts metric around.store p.genesis? := by
  induction script generalizing p with
  | done answer => rfl
  | wait operation next ih =>
    unfold run at h
    split at h
    · cases h
    · next clock hcompletion =>
      split at h
      · cases h
      · next hfailure =>
        simp only [run, hcompletion, hfailure]
        exact ih around.store h
  | count counted next ih =>
    have hnext := ih h
    rw [Metrics.count_bump] at hnext
    simp only [run, counts, hnext]
    omega
  | consult next ih => exact ih p.genesis? h
  | memoize genesis next ih => exact ih h

end Script

/-! ## Positions -/

section Positions

variable {window : List TransactionRow} {batch first : Nat} {pages : List (List Nat)}

/-- The rows of a window at these positions. -/
def rowsAt (window : List TransactionRow) (positions : List Nat) : List TransactionRow :=
  positions.filterMap fun i => window[i]?

/-- The row at position `i` comes after the last row of a full page and has its timestamp. -/
def PassedOver (window : List TransactionRow) (batch : Nat) (page : List Nat) (i : Nat) : Prop :=
  page.length = batch ∧ ∃ last, page.getLast? = some last ∧ last < i ∧
    window[i]?.map TransactionRow.consensusTimestamp =
      window[last]?.map TransactionRow.consensusTimestamp

/-- The pages of a window from a position on: they go forward, all but the last one are full, and
what they miss is what the full ones pass over. -/
structure Paged (window : List TransactionRow) (batch first : Nat) (pages : List (List Nat)) :
    Prop where
  ascending : pages.flatten.Pairwise (· < ·)
  inside : ∀ i ∈ pages.flatten, first ≤ i ∧ i < window.length
  short : ∀ page ∈ pages, page.length ≤ batch
  full : ∀ page ∈ pages.dropLast, page.length = batch
  missing : ∀ i, first ≤ i → i < window.length →
    (i ∉ pages.flatten ↔ ∃ page ∈ pages, PassedOver window batch page i)

theorem rowsAt_append (window : List TransactionRow) (front back : List Nat) :
    rowsAt window (front ++ back) = rowsAt window front ++ rowsAt window back :=
  List.filterMap_append

theorem rowsAt_range' (window : List TransactionRow) (first size : Nat) :
    rowsAt window (List.range' first size) = (window.drop first).take size := by
  induction size generalizing first with
  | zero => rfl
  | succ size ih =>
    rw [List.range'_succ, rowsAt, List.filterMap_cons]
    by_cases hfirst : first < window.length
    · rw [List.getElem?_eq_getElem hfirst, List.drop_eq_getElem_cons hfirst, List.take_succ_cons,
        ← ih]
      rfl
    · have hrest := ih (first + 1)
      rw [List.drop_eq_nil_of_le (by omega), List.take_nil] at hrest
      rw [List.getElem?_eq_none (by omega), List.drop_eq_nil_of_le (by omega), List.take_nil]
      exact hrest

theorem rowsAt_range (window : List TransactionRow) :
    rowsAt window (List.range window.length) = window := by
  rw [List.range_eq_range', rowsAt_range', List.drop_zero, List.take_length]

theorem length_rowsAt {positions : List Nat} (h : ∀ i ∈ positions, i < window.length) :
    (rowsAt window positions).length = positions.length := by
  induction positions with
  | nil => rfl
  | cons i rest ih =>
    obtain ⟨hi, hrest⟩ := List.forall_mem_cons.1 h
    rw [rowsAt, List.filterMap_cons, List.getElem?_eq_getElem hi]
    exact congrArg (· + 1) (ih hrest)

theorem getLast?_range' {first size : Nat} (h : 0 < size) :
    (List.range' first size).getLast? = some (first + size - 1) := by
  obtain ⟨size, rfl⟩ := Nat.exists_eq_add_of_lt h
  rw [Nat.zero_add, List.range'_concat, List.getLast?_concat]
  simp

/-- The last page from a position on: a page that is not full reaches the end of the window, and a
full one is followed by rows of its last timestamp only. -/
theorem paged_singleton {size : Nat} (hbatch : 0 < batch) (hsize : size ≤ batch)
    (hinside : first + size ≤ window.length)
    (hshort : size < batch → first + size = window.length)
    (hfull : size = batch → ∀ i, first + size ≤ i → i < window.length →
      window[i]?.map TransactionRow.consensusTimestamp =
        window[first + size - 1]?.map TransactionRow.consensusTimestamp) :
    Paged window batch first [List.range' first size] where
  ascending := by
    rw [List.flatten_singleton]
    exact List.pairwise_lt_range'
  inside := by
    intro i hi
    rw [List.flatten_singleton, List.mem_range'_1] at hi
    omega
  short := by simpa using hsize
  full := by simp
  missing := by
    intro i hfirst hlen
    rw [List.flatten_singleton, List.mem_range'_1]
    simp only [List.mem_singleton, exists_eq_left, PassedOver, List.length_range']
    constructor
    · intro hmiss
      have hbehind : first + size ≤ i := by omega
      have heq : size = batch := by
        by_contra hne
        have := hshort (by omega)
        omega
      exact ⟨heq, first + size - 1, getLast?_range' (by omega), by omega, hfull heq i hbehind hlen⟩
    · rintro ⟨heq, last, hlast, hlt, -⟩
      rw [getLast?_range' (by omega), Option.some.injEq] at hlast
      omega

theorem Paged.cons {further : Nat} (hbatch : 0 < batch) (h : Paged window batch further pages)
    (hfurther : first + batch ≤ further) (hinside : first + batch ≤ window.length)
    (hbetween : ∀ i, first + batch ≤ i → i < further → i < window.length →
      window[i]?.map TransactionRow.consensusTimestamp =
        window[first + batch - 1]?.map TransactionRow.consensusTimestamp)
    (hbehind : ∀ i, further ≤ i → i < window.length →
      window[i]?.map TransactionRow.consensusTimestamp ≠
        window[first + batch - 1]?.map TransactionRow.consensusTimestamp) :
    Paged window batch first (List.range' first batch :: pages) where
  ascending := by
    rw [List.flatten_cons, List.pairwise_append]
    refine ⟨List.pairwise_lt_range', h.ascending, fun i hi j hj => ?_⟩
    have := h.inside j hj
    rw [List.mem_range'_1] at hi
    omega
  inside := by
    intro i hi
    rw [List.flatten_cons, List.mem_append, List.mem_range'_1] at hi
    rcases hi with hpage | hrest
    · omega
    · have := h.inside i hrest
      omega
  short := by
    rw [List.forall_mem_cons, List.length_range']
    exact ⟨Nat.le_refl _, h.short⟩
  full := by
    intro page hpage
    cases pages with
    | nil => simp at hpage
    | cons next others =>
      rw [List.dropLast_cons_cons, List.mem_cons] at hpage
      rcases hpage with rfl | hpage
      · exact List.length_range'
      · exact h.full page hpage
  missing := by
    intro i hfirst hlen
    rw [List.flatten_cons, List.mem_append, List.mem_range'_1, List.exists_mem_cons_iff]
    have hpassed : PassedOver window batch (List.range' first batch) i ↔
        first + batch ≤ i ∧ i < further := by
      simp only [PassedOver, List.length_range', getLast?_range' hbatch, Option.some.injEq,
        true_and, exists_eq_left']
      constructor
      · rintro ⟨hlt, htime⟩
        refine ⟨by omega, ?_⟩
        by_contra hnot
        exact hbehind i (by omega) hlen htime
      · rintro ⟨hle, hlt⟩
        exact ⟨by omega, hbetween i hle hlt hlen⟩
    rw [hpassed]
    by_cases hi : further ≤ i
    · rw [← h.missing i hi hlen]
      constructor
      · exact fun hnot => .inr fun hmem => hnot (.inr hmem)
      · rintro (hbefore | hnot)
        · omega
        · rintro (hpage | hmem)
          · omega
          · exact hnot hmem
    · have hrest : i ∉ pages.flatten := fun hmem => hi (h.inside i hmem).1
      have hpages : ¬ ∃ page ∈ pages, PassedOver window batch page i := by
        rintro ⟨page, hpage, -, last, hlast, hlt, -⟩
        have := h.inside last (List.mem_flatten_of_mem hpage (List.mem_of_getLast? hlast))
        omega
      simp only [hrest, hpages, or_false]
      omega

namespace Paged

variable (h : Paged window batch first pages)
include h

/-- The full pages are paid for by their rows. -/
theorem length_le (hbatch : 0 < batch) :
    pages.length ≤ pages.flatten.length / batch + 1 := by
  have hfull : batch * pages.dropLast.length ≤ pages.flatten.length := by
    calc batch * pages.dropLast.length
        = pages.dropLast.flatten.length := by
          rw [List.length_flatten, List.map_congr_left h.full, List.map_const', List.sum_replicate,
            smul_eq_mul, Nat.mul_comm]
      _ ≤ pages.flatten.length :=
          (List.Sublist.flatten (List.dropLast_sublist pages)).length_le
  rw [List.length_dropLast] at hfull
  have := (Nat.le_div_iff_mul_le hbatch).2 (Nat.mul_comm batch _ ▸ hfull)
  omega

theorem rowsAt_sublist : (rowsAt window pages.flatten).Sublist window := by
  have hsub : pages.flatten.Sublist (List.range window.length) :=
    List.sublist_of_subperm_of_pairwise
      (List.subperm_of_subset h.ascending.nodup fun i hi => List.mem_range.2 (h.inside i hi).2)
      h.ascending List.pairwise_lt_range
  have := hsub.filterMap fun i => window[i]?
  rwa [← rowsAt, ← rowsAt, rowsAt_range] at this

theorem rowsAt_eq (hfirst : first = 0)
    (hdistinct : window.Pairwise fun a b => a.consensusTimestamp ≠ b.consensusTimestamp) :
    rowsAt window pages.flatten = window := by
  have hmem : ∀ i, i ∈ pages.flatten ↔ i ∈ List.range window.length := by
    intro i
    rw [List.mem_range]
    refine ⟨fun hi => (h.inside i hi).2, fun hi => ?_⟩
    by_contra hnot
    obtain ⟨page, hpage, -, last, hlast, hlt, htime⟩ := (h.missing i (by omega) hi).1 hnot
    have hlastlen := (h.inside last
      (List.mem_flatten_of_mem hpage (List.mem_of_getLast? hlast))).2
    rw [List.getElem?_eq_getElem hi, List.getElem?_eq_getElem hlastlen, Option.map_some,
      Option.map_some, Option.some.injEq] at htime
    exact List.pairwise_iff_getElem.1 hdistinct last i hlastlen hi hlt htime.symm
  rw [h.ascending.eq_of_mem_iff List.pairwise_lt_range hmem, rowsAt_range]

end Paged

end Positions

/-! ## Corrected pages -/

section Corrections

variable {s : Store} {stored : List TransactionRow}

/-- A stored row as a scan may gather it: with the movements of live tokens, or with all those
recorded at its timestamp by some row. Everything else is as stored. -/
def Store.Gathers (s : Store) (stored row : TransactionRow) : Prop :=
  row = s.liveRow stored ∨ ∃ other ∈ s.transactions.items,
    other.consensusTimestamp = stored.consensusTimestamp ∧ row = stored.corrected other.recorded

theorem gathers_liveRow (stored : List TransactionRow) :
    List.Forall₂ s.Gathers stored (stored.map s.liveRow) := by
  rw [List.forall₂_map_right_iff]
  exact List.forall₂_same.2 fun row _ => .inl rfl

theorem gathers_applyCorrections {corrections : List TransferCorrection}
    (h : ∀ c ∈ corrections, ∃ other ∈ s.transactions.items, c = other.recorded)
    (stored : List TransactionRow) :
    List.Forall₂ s.Gathers stored (applyCorrections (stored.map s.liveRow) corrections) := by
  have hrows := forall₂_applyCorrections (stored.map s.liveRow) corrections
  refine (List.forall₂_map_left_iff.1 hrows).imp ?_
  rintro row _ (rfl | ⟨c, hc, htime, rfl⟩)
  · exact .inl rfl
  · obtain ⟨other, hother, rfl⟩ := h c hc
    exact .inr ⟨other, hother, htime.symm, rfl⟩

theorem exists_eval_correct (s : Store) (stored : List TransactionRow) :
    ∃ rows, (∀ g, (Script.correct (stored.map s.liveRow)).eval s g = (.ok rows, g)) ∧
      List.Forall₂ s.Gathers stored rows := by
  unfold Script.correct
  dsimp only
  split
  · exact ⟨_, fun _ => rfl, gathers_liveRow stored⟩
  · refine ⟨_, fun _ => rfl, gathers_applyCorrections (fun c hc => ?_) stored⟩
    obtain ⟨other, hother, rfl⟩ := List.mem_map.1 hc
    exact ⟨other, (List.mem_filter.1 hother).1, rfl⟩

theorem counts_correct (s : Store) (rows : List TransactionRow) (g : Option Block) :
    (Script.correct rows).counts .scanBatches s g = 0 := by
  unfold Script.correct
  dsimp only
  split <;> rfl

end Corrections

/-! ## Scans -/

section Window

variable {s : Store} {window : List TransactionRow} {batch first : Nat}
  {start stop cursor last : Int64}

theorem exists_filter_eq_drop {p : TransactionRow → Bool} {rows : List TransactionRow}
    (h : rows.Pairwise fun a b => p a → p b) :
    ∃ k ≤ rows.length, rows.filter p = rows.drop k ∧
      ∀ i (hi : i < rows.length), p rows[i] = true ↔ k ≤ i := by
  induction rows with
  | nil => exact ⟨0, Nat.le_refl _, rfl, by simp⟩
  | cons row rows ih =>
    obtain ⟨hrow, hrows⟩ := List.pairwise_cons.1 h
    by_cases hp : p row
    · have hall : ∀ other ∈ row :: rows, p other :=
        List.forall_mem_cons.2 ⟨hp, fun other hother => hrow other hother hp⟩
      refine ⟨0, Nat.zero_le _, List.filter_eq_self.2 hall, fun i hi => ?_⟩
      exact iff_of_true (hall _ (List.getElem_mem hi)) (Nat.zero_le i)
    · obtain ⟨k, hk, hfilter, hiff⟩ := ih hrows
      refine ⟨k + 1, Nat.succ_le_succ hk, ?_, fun i hi => ?_⟩
      · rw [List.filter_cons_of_neg hp, hfilter, List.drop_succ_cons]
      · cases i with
        | zero => simp [hp]
        | succ i =>
          rw [List.getElem_cons_succ, hiff i (Nat.lt_of_succ_lt_succ hi), Nat.succ_le_succ_iff]

theorem between_inOrder (s : Store) (start stop : Int64) :
    (s.transactions.between start stop).Pairwise fun a b =>
      a.consensusTimestamp.toInt ≤ b.consensusTimestamp.toInt := by
  refine List.Pairwise.sublist List.filter_sublist (s.transactions.inOrder.imp fun h => ?_)
  exact Int64.le_iff_toInt_le.1 h

theorem getLast?_take_drop (hbatch : 0 < batch) (hfull : first + batch ≤ window.length) :
    ((window.drop first).take batch).getLast? = window[first + batch - 1]? := by
  rw [List.getLast?_eq_getElem?, List.length_take, List.length_drop, List.getElem?_take,
    List.getElem?_drop, if_pos (by omega)]
  congr 1
  omega

theorem timestamp_le_of_le {i j : Nat} (hij : i ≤ j) {a b : TransactionRow}
    (ha : (s.transactions.between start stop)[i]? = some a)
    (hb : (s.transactions.between start stop)[j]? = some b) :
    a.consensusTimestamp.toInt ≤ b.consensusTimestamp.toInt := by
  rcases Nat.eq_or_lt_of_le hij with rfl | hlt
  · rw [ha, Option.some.injEq] at hb
    rw [hb]
  · obtain ⟨hi, rfl⟩ := List.getElem?_eq_some_iff.1 ha
    obtain ⟨hj, rfl⟩ := List.getElem?_eq_some_iff.1 hb
    exact List.pairwise_iff_getElem.1 (between_inOrder s start stop) i j hi hj hlt

theorem paged_of_pageEnd?_eq_none (hbatch : 0 < batch)
    (hwindow : window = s.transactions.between start stop) (hfirst : first ≤ window.length)
    (hend : pageEnd? (((window.drop first).take batch).map s.liveRow) batch stop = none) :
    Paged window batch first [List.range' first (min batch (window.length - first))] := by
  refine paged_singleton hbatch (Nat.min_le_left _ _) (by omega) (by omega) fun hfull i hle hi => ?_
  have hlen : first + batch ≤ window.length := by omega
  rw [hfull] at hle ⊢
  obtain ⟨last, hlast⟩ : ∃ last, window[first + batch - 1]? = some last :=
    ⟨_, List.getElem?_eq_getElem (by omega)⟩
  obtain ⟨row, hrow⟩ : ∃ row, window[i]? = some row := ⟨_, List.getElem?_eq_getElem hi⟩
  have hstop : stop.toInt ≤ last.consensusTimestamp.toInt :=
    Int64.le_iff_toInt_le.1 (le_of_pageEnd?_eq_none hend
      (by rw [List.length_take, List.length_drop]; omega)
      ((getLast?_take_drop hbatch hlen).trans hlast))
  subst hwindow
  have hbefore := timestamp_le_of_le (by omega) hlast hrow
  have hbound := (mem_between.1 (List.mem_of_getElem? hrow)).2.2
  rw [hrow, hlast, Option.map_some, Option.map_some, Option.some.injEq, ← Int64.toInt_inj]
  omega

theorem exists_further_of_pageEnd?_eq_some {next : Int64} (hbatch : 0 < batch)
    (hwindow : window = s.transactions.between start stop)
    (hend : pageEnd? (((window.drop first).take batch).map s.liveRow) batch stop = some last)
    (hnext : next.toInt = last.toInt + 1) :
    ∃ further, first + batch ≤ further ∧ further ≤ window.length ∧
      s.transactions.between next stop = window.drop further ∧
      ∀ {pages : List (List Nat)}, Paged window batch further pages →
        Paged window batch first (List.range' first batch :: pages) := by
  obtain ⟨hfull, -, -⟩ := pageEnd?_eq_some hend
  obtain ⟨final, hfinal, rfl⟩ := getLast?_of_pageEnd? hend
  have hlen : first + batch ≤ window.length := by
    simp only [List.length_map, List.length_take, List.length_drop] at hfull
    omega
  rw [getLast?_take_drop hbatch hlen] at hfinal
  have hstart : start.toInt ≤ final.consensusTimestamp.toInt :=
    (mem_between.1 (hwindow ▸ List.mem_of_getElem? hfinal)).2.1
  have hmono : window.Pairwise fun a b =>
      decide (final.consensusTimestamp.toInt < a.consensusTimestamp.toInt) = true →
        decide (final.consensusTimestamp.toInt < b.consensusTimestamp.toInt) = true := by
    rw [hwindow]
    refine (between_inOrder s start stop).imp fun {a b} hle hlt => ?_
    simp only [decide_eq_true_eq] at hlt ⊢
    omega
  obtain ⟨further, hfurther, hfilter, hiff⟩ := exists_filter_eq_drop hmono
  have hiff' : ∀ i row, window[i]? = some row →
      (final.consensusTimestamp.toInt < row.consensusTimestamp.toInt ↔ further ≤ i) := by
    intro i row hrow
    obtain ⟨hi, rfl⟩ := List.getElem?_eq_some_iff.1 hrow
    rw [← hiff i hi, decide_eq_true_eq]
  have hle : first + batch ≤ further := by
    have := hiff' (first + batch - 1) final hfinal
    omega
  refine ⟨further, hle, hfurther, ?_, fun hpages => ?_⟩
  · rw [between_of_next hstart hnext, ← hwindow, hfilter]
  · refine hpages.cons hbatch hle hlen (fun i hbehind hbefore hi => ?_) (fun i hbehind hi => ?_)
    all_goals
      obtain ⟨row, hrow⟩ : ∃ row, window[i]? = some row := ⟨_, List.getElem?_eq_getElem hi⟩
      have hlater := hiff' i row hrow
      rw [hrow, hfinal, Option.map_some, Option.map_some]
    · subst hwindow
      have := timestamp_le_of_le (by omega) hfinal hrow
      rw [Option.some.injEq, ← Int64.toInt_inj]
      omega
    · rw [Ne, Option.some.injEq, ← Int64.toInt_inj]
      omega

end Window

section Scans

variable {s : Store} {batch : Nat} {start stop : Int64}

/-- The rows that a scan gathers, and the pages in which it gathers them. The induction is on what
is left of the range; the invariant is that this is the window from some position on. -/
theorem exists_paged (hbatch : 0 < batch) {window : List TransactionRow}
    (hwindow : window = s.transactions.between start stop) (cursor : Int64) {first : Nat}
    (hfirst : first ≤ window.length)
    (hcursor : s.transactions.between cursor stop = window.drop first) :
    ∃ pages rows, Paged window batch first pages ∧
      List.Forall₂ s.Gathers (rowsAt window pages.flatten) rows ∧ ∀ gathered g,
        (Script.scan batch stop cursor gathered).eval s g = (.ok (gathered ++ rows), g) ∧
        (Script.scan batch stop cursor gathered).counts .scanBatches s g = pages.length := by
  have hpage : s.transactionsInRange cursor stop batch =
      ((window.drop first).take batch).map s.liveRow := by
    rw [Store.transactionsInRange, hcursor]
  obtain ⟨corrected, hcorrect, hgathers⟩ := exists_eval_correct s ((window.drop first).take batch)
  cases hend : pageEnd? (s.transactionsInRange cursor stop batch) batch stop with
  | none =>
    refine ⟨_, corrected, paged_of_pageEnd?_eq_none hbatch hwindow hfirst (hpage ▸ hend), ?_,
      fun gathered g => ⟨?_, ?_⟩⟩
    · rwa [List.flatten_singleton, rowsAt_range', ← List.length_drop, ← List.take_eq_take_min]
    · rw [Script.scan_eq]
      simp only [Script.eval, hend]
      rw [hpage, Script.eval_bind_of_eq (hcorrect g), Script.eval_done]
    · rw [Script.scan_eq]
      simp only [Script.counts, hend]
      rw [hpage, Script.counts_bind_of_eq (hcorrect g), counts_correct]
      rfl
  | some last =>
    obtain ⟨_, hlt, -⟩ := pageEnd?_eq_some hend
    obtain ⟨next, hnext⟩ := exists_addChecked_one hlt
    have hstep : next.toInt = last.toInt + 1 := addChecked_eq_ok_iff.1 hnext
    obtain ⟨further, hle, hfurther, hrest, hcons⟩ :=
      exists_further_of_pageEnd?_eq_some hbatch hwindow (hpage ▸ hend) hstep
    obtain ⟨pages, rows, hpaged, hrows, hscan⟩ :=
      exists_paged hbatch hwindow next hfurther hrest
    refine ⟨_, corrected ++ rows, hcons hpaged, ?_, fun gathered g => ?_⟩
    · rw [List.flatten_cons, rowsAt_append, rowsAt_range']
      exact List.rel_append hgathers hrows
    obtain ⟨heval, hcount⟩ := hscan (gathered ++ corrected) g
    constructor
    · rw [Script.scan_eq]
      simp only [Script.eval, hend]
      rw [hpage, Script.eval_bind_of_eq (hcorrect g)]
      simp only [hnext]
      rw [heval, List.append_assoc]
    · rw [Script.scan_eq]
      simp only [Script.counts, hend]
      rw [hpage, Script.counts_bind_of_eq (hcorrect g), counts_correct]
      simp only [hnext, hcount, List.length_cons, Nat.zero_add, if_true]
termination_by (stop.toInt - cursor.toInt).toNat
decreasing_by exact remaining_lt hend hnext

/-- What a scan does over any store. It never overflows, and it misses just the rows that follow a
full page and have the timestamp of the last row of that page. -/
theorem run_scan (s : Store) (hbatch : 0 < batch) (start stop : Int64) :
    ∃ pages rows, Paged (s.transactions.between start stop) batch 0 pages ∧
      (rowsAt (s.transactions.between start stop) pages.flatten).Sublist
        (s.transactions.between start stop) ∧
      List.Forall₂ s.Gathers (rowsAt (s.transactions.between start stop) pages.flatten) rows ∧
      (s.DistinctTimestamps →
        rowsAt (s.transactions.between start stop) pages.flatten =
          s.transactions.between start stop) ∧
      pages.length ≤ rows.length / batch + 1 ∧
      ∀ (around : Script.Surroundings) (p : Script.Progress), around.store = s →
        (∀ what, ((Script.scan batch stop start []).run around p).1 ≠
          .error (.overflow what)) ∧
        (around.failure? = none → around.latency = 0 →
          ((Script.scan batch stop start []).run around p).1 = .ok rows) ∧
        ∀ gathered, ((Script.scan batch stop start []).run around p).1 = .ok gathered →
          gathered = rows ∧
          ((Script.scan batch stop start []).run around p).2.metrics.count .scanBatches =
            p.metrics.count .scanBatches + pages.length := by
  obtain ⟨pages, rows, hpaged, hrows, hscan⟩ := exists_paged hbatch rfl start (Nat.zero_le _)
    (List.drop_zero (l := s.transactions.between start stop)).symm
  have hlength : rows.length = pages.flatten.length := by
    rw [← hrows.length_eq, length_rowsAt fun i hi => (hpaged.inside i hi).2]
  refine ⟨pages, rows, hpaged, hpaged.rowsAt_sublist, hrows, fun hdistinct => ?_, ?_, ?_⟩
  · exact hpaged.rowsAt_eq rfl (hdistinct.sublist List.filter_sublist)
  · rw [hlength]
    exact hpaged.length_le hbatch
  rintro around p rfl
  have heval := fun g => (hscan [] g).1
  refine ⟨fun what hoverflow => ?_, fun hfailure hlatency => ?_, fun gathered hok => ⟨?_, ?_⟩⟩
  · have := Script.eval_of_run_eq hoverflow fun _ => nofun
    rw [heval] at this
    cases this
  · rw [Script.run_of_quiet hfailure hlatency, heval, List.nil_append]
  · have := Script.eval_of_run hok
    rw [heval] at this
    cases this
    rfl
  · rw [Script.count_of_run hok, (hscan [] p.genesis?).2]

end Scans

/-- Three transactions at one time, with one before and one after them. -/
private def tiedStore : Store :=
  let row : TransactionRow :=
    { consensusTimestamp := 10, hash := [1], transactionType := 14, result := 22, payer := 1001,
      entity? := none, memo := [], cryptoTransfers := [⟨1001, -5, none⟩, ⟨98, 5, none⟩],
      itemizedTransfers := [], tokenTransfers := [], nftTransfers := [], stakingRewards := [],
      token? := none }
  Store.ingestAll {} [
    .transaction { row with consensusTimestamp := 30, hash := [5] },
    .transaction { row with consensusTimestamp := 20, hash := [2] },
    .transaction { row with consensusTimestamp := 20, hash := [3] },
    .transaction row,
    .transaction { row with consensusTimestamp := 20, hash := [4] }]

/-- Of the three the first page holds one, and the second page none. -/
theorem run_scan_tied :
    ((tiedStore.transactions.between 10 30).map TransactionRow.hash =
        [[1], [2], [3], [4], [5]]) ∧
      ((Script.scan 2 30 10 []).run ⟨tiedStore, none, 0, 0⟩ {}).1.map
          (List.map TransactionRow.hash) = .ok [[1], [2], [5]] ∧
      ∃ pages rows, Paged (tiedStore.transactions.between 10 30) 2 0 pages ∧
        ((Script.scan 2 30 10 []).run ⟨tiedStore, none, 0, 0⟩ {}).1 = .ok rows ∧
        ((Script.scan 2 30 10 []).run ⟨tiedStore, none, 0, 0⟩ {}).2.metrics.count .scanBatches =
          pages.length := by
  refine ⟨by decide, by decide +kernel, ?_⟩
  obtain ⟨pages, rows, hpaged, -, -, -, -, hrun⟩ :=
    run_scan tiedStore (show 0 < 2 by decide) 10 30
  obtain ⟨-, hquiet, hends⟩ := hrun ⟨tiedStore, none, 0, 0⟩ {} rfl
  have hok := hquiet rfl rfl
  exact ⟨pages, rows, hpaged, hok, by simpa [Metrics.count] using (hends rows hok).2⟩

end LedgerView
