import Mathlib
import LedgerView.Correction
/-!
# No correction is lost

One pass over the rows hands each correction to the next row of its timestamp. If the timestamps
of the corrections are a subsequence of those of the rows, the pass never goes by a row that a
later correction needs: every correction is taken, each by a row of its own, whatever rows share a
timestamp (`corrections_applied`). Where no two rows share one, the correction that a row takes is
found by its timestamp alone.
-/

namespace LedgerView

namespace TransactionRow

/-- The row without its token and serial movements. -/
def bare (row : TransactionRow) : TransactionRow :=
  { row with tokenTransfers := [], nftTransfers := [] }

/-- The row with the correction that it takes, if it takes one. -/
def taking (row : TransactionRow) : Option TransferCorrection → TransactionRow
  | some c => row.corrected c
  | none => row

theorem bare_corrected (row : TransactionRow) (c : TransferCorrection) :
    (row.corrected c).bare = row.bare := rfl

end TransactionRow

/-- The first correction of a timestamp. -/
def correctionAt? (corrections : List TransferCorrection) (timestamp : Int64) :
    Option TransferCorrection :=
  corrections.find? fun c => c.consensusTimestamp = timestamp

/-- The rows, each beside the correction that it takes, if it takes one. Along the rows all
corrections are taken, in their order, and each by a row of its timestamp. -/
structure Taken (rows : List TransactionRow) (corrections : List TransferCorrection)
    (taken : List (TransactionRow × Option TransferCorrection)) : Prop where
  rows : taken.map Prod.fst = rows
  corrections : taken.filterMap Prod.snd = corrections
  timestamps : ∀ row c, (row, some c) ∈ taken → row.consensusTimestamp = c.consensusTimestamp

variable {rows : List TransactionRow} {corrections : List TransferCorrection}
  {row : TransactionRow} {c : TransferCorrection}

/-! ## Whatever the corrections are -/

theorem applyCorrections_nil (rows : List TransactionRow) : applyCorrections rows [] = rows := by
  cases rows <;> rfl

theorem applyCorrections_cons_of_ne
    (h : ∀ c ∈ corrections, row.consensusTimestamp ≠ c.consensusTimestamp) :
    applyCorrections (row :: rows) corrections = row :: applyCorrections rows corrections := by
  cases corrections with
  | nil => rw [applyCorrections_nil, applyCorrections_nil]
  | cons c corrections => rw [applyCorrections, if_neg (h c (by simp))]

theorem forall₂_applyCorrections (rows : List TransactionRow)
    (corrections : List TransferCorrection) :
    List.Forall₂ (fun row row' => row' = row ∨ ∃ c ∈ corrections,
        row.consensusTimestamp = c.consensusTimestamp ∧ row' = row.corrected c)
      rows (applyCorrections rows corrections) := by
  induction rows generalizing corrections with
  | nil => exact .nil
  | cons row rows ih =>
    cases corrections with
    | nil =>
      rw [applyCorrections_nil]
      exact List.forall₂_same.2 fun _ _ => .inl rfl
    | cons c corrections =>
      rw [applyCorrections]
      split
      · next htime =>
        refine .cons (.inr ⟨c, List.mem_cons_self, htime, rfl⟩) ((ih corrections).imp ?_)
        rintro other _ (rfl | ⟨c', hc', hrest⟩)
        · exact .inl rfl
        · exact .inr ⟨c', List.mem_cons_of_mem c hc', hrest⟩
      · exact .cons (.inl rfl) (ih (c :: corrections))

theorem map_bare_applyCorrections (rows : List TransactionRow)
    (corrections : List TransferCorrection) :
    (applyCorrections rows corrections).map TransactionRow.bare =
      rows.map TransactionRow.bare := by
  rw [← List.forall₂_eq_eq_eq, List.forall₂_map_left_iff, List.forall₂_map_right_iff]
  refine (forall₂_applyCorrections rows corrections).flip.imp ?_
  rintro _ row (rfl | ⟨c, -, -, rfl⟩)
  · rfl
  · exact row.bare_corrected c

/-! ## Corrections that follow the rows -/

section Pass

variable {taken : List (TransactionRow × Option TransferCorrection)}

theorem sublist_of_taken
    (h : ((c :: corrections).map TransferCorrection.consensusTimestamp).Sublist
      ((row :: rows).map TransactionRow.consensusTimestamp)) :
    (corrections.map TransferCorrection.consensusTimestamp).Sublist
      (rows.map TransactionRow.consensusTimestamp) :=
  h.tail

theorem sublist_of_passed
    (h : ((c :: corrections).map TransferCorrection.consensusTimestamp).Sublist
      ((row :: rows).map TransactionRow.consensusTimestamp))
    (hne : row.consensusTimestamp ≠ c.consensusTimestamp) :
    ((c :: corrections).map TransferCorrection.consensusTimestamp).Sublist
      (rows.map TransactionRow.consensusTimestamp) :=
  List.Sublist.of_cons_of_ne (Ne.symm hne) h

theorem Taken.cons_none (h : Taken rows corrections taken) (row : TransactionRow) :
    Taken (row :: rows) corrections ((row, none) :: taken) where
  rows := by rw [List.map_cons, h.rows]
  corrections := h.corrections
  timestamps other c hmem := by
    rcases List.mem_cons.1 hmem with heq | hmem
    · cases heq
    · exact h.timestamps other c hmem

theorem Taken.cons_some (h : Taken rows corrections taken)
    (htime : row.consensusTimestamp = c.consensusTimestamp) :
    Taken (row :: rows) (c :: corrections) ((row, some c) :: taken) where
  rows := by rw [List.map_cons, h.rows]
  corrections := congrArg (c :: ·) h.corrections
  timestamps other c' hmem := by
    rcases List.mem_cons.1 hmem with heq | hmem
    · cases heq
      exact htime
    · exact h.timestamps other c' hmem

theorem taken_none (rows : List TransactionRow) :
    Taken rows [] (rows.map fun row => (row, none)) := by
  induction rows with
  | nil => exact ⟨rfl, rfl, by simp⟩
  | cons row rows ih => exact ih.cons_none row

/-- The induction is along the pass: what is left of the corrections' timestamps stays a
subsequence of what is left of the rows'. -/
theorem exists_taken
    (h : (corrections.map TransferCorrection.consensusTimestamp).Sublist
      (rows.map TransactionRow.consensusTimestamp)) :
    ∃ taken, Taken rows corrections taken ∧
      applyCorrections rows corrections = taken.map fun e => e.1.taking e.2 := by
  induction rows generalizing corrections with
  | nil =>
    rw [List.map_nil, List.sublist_nil, List.map_eq_nil_iff] at h
    subst h
    exact ⟨[], taken_none [], rfl⟩
  | cons row rows ih =>
    cases corrections with
    | nil =>
      refine ⟨_, taken_none (row :: rows), ?_⟩
      rw [applyCorrections_nil, List.map_map]
      exact (List.map_id _).symm
    | cons c corrections =>
      rw [applyCorrections]
      by_cases htime : row.consensusTimestamp = c.consensusTimestamp
      · obtain ⟨taken, htaken, happly⟩ := ih (sublist_of_taken h)
        refine ⟨(row, some c) :: taken, htaken.cons_some htime, ?_⟩
        rw [if_pos htime, happly, List.map_cons]
        rfl
      · obtain ⟨taken, htaken, happly⟩ := ih (sublist_of_passed h htime)
        refine ⟨(row, none) :: taken, htaken.cons_none row, ?_⟩
        rw [if_neg htime, happly, List.map_cons]
        rfl

end Pass

/-! ## Rows of distinct timestamps -/

theorem correctionAt?_cons_of_eq (h : row.consensusTimestamp = c.consensusTimestamp) :
    correctionAt? (c :: corrections) row.consensusTimestamp = some c :=
  List.find?_cons_of_pos (decide_eq_true h.symm)

theorem correctionAt?_cons_of_ne (h : row.consensusTimestamp ≠ c.consensusTimestamp) :
    correctionAt? (c :: corrections) row.consensusTimestamp =
      correctionAt? corrections row.consensusTimestamp :=
  List.find?_cons_of_neg (by simpa using Ne.symm h)

theorem correctionAt?_eq_none
    (h : (corrections.map TransferCorrection.consensusTimestamp).Sublist
      (rows.map TransactionRow.consensusTimestamp))
    (hrow : ∀ other ∈ rows, row.consensusTimestamp ≠ other.consensusTimestamp) :
    correctionAt? corrections row.consensusTimestamp = none := by
  rw [correctionAt?, List.find?_eq_none]
  intro c hc hsame
  obtain ⟨other, hother, htime⟩ := List.mem_map.1 (h.subset (List.mem_map_of_mem hc))
  exact hrow other hother ((of_decide_eq_true hsame).symm.trans htime.symm)

theorem applyCorrections_eq_map_taking
    (h : (corrections.map TransferCorrection.consensusTimestamp).Sublist
      (rows.map TransactionRow.consensusTimestamp))
    (hdistinct : rows.Pairwise fun a b => a.consensusTimestamp ≠ b.consensusTimestamp) :
    applyCorrections rows corrections =
      rows.map fun row => row.taking (correctionAt? corrections row.consensusTimestamp) := by
  induction rows generalizing corrections with
  | nil => rfl
  | cons row rows ih =>
    obtain ⟨hrow, hrows⟩ := List.pairwise_cons.1 hdistinct
    cases corrections with
    | nil =>
      rw [applyCorrections_nil]
      exact (List.map_id _).symm
    | cons c corrections =>
      rw [applyCorrections, List.map_cons]
      by_cases htime : row.consensusTimestamp = c.consensusTimestamp
      · have hothers : ∀ other ∈ rows,
            other.taking (correctionAt? corrections other.consensusTimestamp) =
              other.taking (correctionAt? (c :: corrections) other.consensusTimestamp) := by
          intro other hother
          rw [correctionAt?_cons_of_ne fun heq => hrow other hother (htime.trans heq.symm)]
        rw [if_pos htime, correctionAt?_cons_of_eq htime, ih (sublist_of_taken h) hrows,
          List.map_congr_left hothers]
        rfl
      · have hrest := sublist_of_passed h htime
        rw [if_neg htime, correctionAt?_eq_none hrest hrow, ih hrest hrows]
        rfl

/-- A pass over the rows applies every correction if the corrections' timestamps are a subsequence
of the rows': each goes to a row of its own that has its timestamp, in order, and the other rows
stay as they are. No row comes or goes, and nothing but token and serial movements changes. If no
two rows have one timestamp, the corrected rows are those whose timestamp is a correction's. The
rows may be in any order. -/
theorem corrections_applied {rows : List TransactionRow} {corrections : List TransferCorrection}
    (h : (corrections.map TransferCorrection.consensusTimestamp).Sublist
      (rows.map TransactionRow.consensusTimestamp)) :
    (∃ taken, Taken rows corrections taken ∧
        applyCorrections rows corrections = taken.map fun e => e.1.taking e.2) ∧
      (applyCorrections rows corrections).map TransactionRow.bare =
        rows.map TransactionRow.bare ∧
      ((rows.Pairwise fun a b => a.consensusTimestamp ≠ b.consensusTimestamp) →
        applyCorrections rows corrections = rows.map fun row =>
          row.taking (correctionAt? corrections row.consensusTimestamp)) :=
  ⟨exists_taken h, map_bare_applyCorrections rows corrections,
    applyCorrections_eq_map_taking h⟩

/-- Two of the rows have one timestamp, and there is only one correction for them. -/
private def tiedRows : List TransactionRow :=
  let row : TransactionRow :=
    { consensusTimestamp := 10, hash := [1], transactionType := 41, result := 22, payer := 1001,
      entity? := none, memo := [], cryptoTransfers := [], itemizedTransfers := [],
      tokenTransfers := [⟨1001, 2000, -7, 2, .fungibleCommon⟩], nftTransfers := [],
      stakingRewards := [], token? := none }
  [row, { row with consensusTimestamp := 20, hash := [2] },
    { row with consensusTimestamp := 20, hash := [3] },
    { row with consensusTimestamp := 30, hash := [4] }]

private def tiedCorrections : List TransferCorrection :=
  [⟨20, [⟨1001, 2000, -4, 2, .fungibleCommon⟩, ⟨1002, 2000, 4, 2, .fungibleCommon⟩], []⟩,
    ⟨30, [], [⟨some 1001, none, 5, 2001⟩]⟩]

theorem corrections_applied_tied :
    (applyCorrections tiedRows tiedCorrections).map
        (fun row => row.tokenTransfers.length) = [1, 2, 1, 0] ∧
      (∃ taken, Taken tiedRows tiedCorrections taken ∧
        applyCorrections tiedRows tiedCorrections = taken.map fun e => e.1.taking e.2) ∧
      applyCorrections (tiedRows.eraseIdx 2) tiedCorrections =
        (tiedRows.eraseIdx 2).map fun row =>
          row.taking (correctionAt? tiedCorrections row.consensusTimestamp) := by
  refine ⟨by decide, (corrections_applied (by decide)).1, ?_⟩
  exact (corrections_applied (by decide)).2.2 (by decide)

end LedgerView
