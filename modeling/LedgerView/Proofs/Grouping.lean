import Mathlib
import LedgerView.Assembly
import LedgerView.Proofs.FirstAppearance
/-!
# Rows by hash

Grouping puts rows of one hash together, in order of first appearance, and changes nothing else:
a group is the list of all rows of its hash, in the order in which they came.
-/

namespace LedgerView.Assembler

/-- The hashes of rows, in order of first appearance. -/
def firstHashes (rows : List TransactionRow) : List Bytes :=
  (rows.map TransactionRow.hash).eraseDups

/-- The rows of one hash. -/
def rowsOf (rows : List TransactionRow) (hash : Bytes) : List TransactionRow :=
  rows.filter fun row => row.hash = hash

theorem mem_firstHashes {rows : List TransactionRow} {hash : Bytes} :
    hash ∈ firstHashes rows ↔ ∃ row ∈ rows, row.hash = hash := by
  rw [firstHashes, List.mem_eraseDups, List.mem_map]

theorem pairwise_firstHashes (rows : List TransactionRow) :
    (firstHashes rows).Pairwise fun x y =>
      (rows.map TransactionRow.hash).idxOf x < (rows.map TransactionRow.hash).idxOf y :=
  pairwise_eraseDups _

theorem nodup_firstHashes (rows : List TransactionRow) : (firstHashes rows).Nodup :=
  nodup_eraseDups _

theorem firstHashes_append (rows : List TransactionRow) (row : TransactionRow) :
    firstHashes (rows ++ [row]) =
      if row.hash ∈ firstHashes rows then firstHashes rows else firstHashes rows ++ [row.hash] := by
  rw [firstHashes, List.map_append, List.map_singleton, eraseDups_concat]
  exact if_congr List.mem_eraseDups.symm rfl rfl

theorem rowsOf_append (rows : List TransactionRow) (row : TransactionRow) (hash : Bytes) :
    rowsOf (rows ++ [row]) hash =
      if row.hash = hash then rowsOf rows hash ++ [row] else rowsOf rows hash := by
  rw [rowsOf, List.filter_append]
  by_cases h : row.hash = hash <;> simp [rowsOf, h]

theorem placeRow_append {row : TransactionRow} {groups : List (Bytes × List TransactionRow)}
    (h : row.hash ∉ groups.map Prod.fst) (others : List (Bytes × List TransactionRow)) :
    placeRow row (groups ++ others) = groups ++ placeRow row others := by
  induction groups with
  | nil => rfl
  | cons group groups ih =>
    rw [List.map_cons, List.mem_cons, not_or] at h
    rw [List.cons_append, placeRow, if_neg (Ne.symm h.1), ih h.2]
    rfl

theorem placeRow_of_not_mem {row : TransactionRow} {groups : List (Bytes × List TransactionRow)}
    (h : row.hash ∉ groups.map Prod.fst) :
    placeRow row groups = groups ++ [(row.hash, [row])] := by
  have happend := placeRow_append h []
  rwa [List.append_nil] at happend

theorem placeRow_of_mem {row : TransactionRow} {hashes : List Bytes}
    {members : Bytes → List TransactionRow} (hnodup : hashes.Nodup) (hmem : row.hash ∈ hashes) :
    placeRow row (hashes.map fun hash => (hash, members hash)) =
      hashes.map fun hash =>
        (hash, if row.hash = hash then members hash ++ [row] else members hash) := by
  induction hashes with
  | nil => simp at hmem
  | cons hash hashes ih =>
    obtain ⟨hhash, hhashes⟩ := List.nodup_cons.1 hnodup
    rw [List.map_cons, List.map_cons, placeRow]
    by_cases heq : hash = row.hash
    · rw [if_pos heq, if_pos heq.symm]
      congr 1
      apply List.map_congr_left
      intro other hother
      have hne : row.hash ≠ other := fun h => hhash (heq ▸ h ▸ hother)
      rw [if_neg hne]
    · rw [if_neg heq, if_neg (Ne.symm heq)]
      rcases List.mem_cons.1 hmem with h | h
      · exact absurd h.symm heq
      · rw [ih hhashes h]

theorem placeRow_map {f : TransactionRow → TransactionRow} (hf : ∀ row, (f row).hash = row.hash)
    (row : TransactionRow) (groups : List (Bytes × List TransactionRow)) :
    placeRow (f row) (groups.map fun group => (group.1, group.2.map f)) =
      (placeRow row groups).map fun group => (group.1, group.2.map f) := by
  induction groups with
  | nil => simp only [placeRow, List.map_nil, List.map_cons, hf]
  | cons group groups ih =>
    rw [List.map_cons, placeRow, placeRow, hf, ih]
    split
    · rw [List.map_cons, List.map_append, List.map_singleton]
    · rw [List.map_cons]

theorem groupByHash_concat (rows : List TransactionRow) (row : TransactionRow) :
    groupByHash (rows ++ [row]) = placeRow row (groupByHash rows) := by
  rw [groupByHash, List.foldl_append]
  rfl

theorem groupByHash_map {f : TransactionRow → TransactionRow} (hf : ∀ row, (f row).hash = row.hash)
    (rows : List TransactionRow) :
    groupByHash (rows.map f) = (groupByHash rows).map fun group => (group.1, group.2.map f) := by
  induction rows using List.reverseRecOn with
  | nil => rfl
  | append_singleton rows row ih =>
    rw [List.map_append, List.map_singleton, groupByHash_concat, ih, groupByHash_concat,
      placeRow_map hf]

/-- The groups of rows are the lists of all rows of one hash, by first appearance. The induction
takes in one row after the other. -/
theorem groupByHash_eq (rows : List TransactionRow) :
    groupByHash rows = (firstHashes rows).map fun hash => (hash, rowsOf rows hash) := by
  induction rows using List.reverseRecOn with
  | nil => rfl
  | append_singleton rows row ih =>
    rw [groupByHash_concat, ih, firstHashes_append]
    by_cases hmem : row.hash ∈ firstHashes rows
    · rw [if_pos hmem, placeRow_of_mem (nodup_firstHashes rows) hmem]
      simp only [rowsOf_append]
    · have hfresh : rowsOf rows row.hash = [] := by
        rw [rowsOf, List.filter_eq_nil_iff]
        intro other hother
        simpa using fun heq => hmem (mem_firstHashes.2 ⟨other, hother, heq⟩)
      rw [if_neg hmem, placeRow_of_not_mem (by simpa using hmem), List.map_append,
        List.map_singleton, rowsOf_append, if_pos rfl, hfresh]
      congr 1
      apply List.map_congr_left
      intro hash hhash
      have hne : row.hash ≠ hash := fun heq => hmem (heq ▸ hhash)
      rw [rowsOf_append, if_neg hne]

theorem mem_groupByHash {rows : List TransactionRow} {group : Bytes × List TransactionRow}
    (h : group ∈ groupByHash rows) :
    group.2 = rowsOf rows group.1 ∧ ∃ row ∈ rows, row.hash = group.1 := by
  rw [groupByHash_eq] at h
  obtain ⟨hash, hhash, rfl⟩ := List.mem_map.1 h
  exact ⟨rfl, mem_firstHashes.1 hhash⟩

theorem groupByHash_append {rows others : List TransactionRow}
    (h : ∀ row ∈ rows, ∀ other ∈ others, row.hash ≠ other.hash) :
    groupByHash (rows ++ others) = groupByHash rows ++ groupByHash others := by
  induction others using List.reverseRecOn with
  | nil => simp [groupByHash]
  | append_singleton others other ih =>
    have habsent : other.hash ∉ (groupByHash rows).map Prod.fst := by
      intro hmem
      obtain ⟨group, hgroup, hhash⟩ := List.mem_map.1 hmem
      obtain ⟨-, row, hrow, hsame⟩ := mem_groupByHash hgroup
      exact h row hrow other (by simp) (hsame.trans hhash)
    rw [← List.append_assoc, groupByHash_concat, groupByHash_concat,
      ih fun row hrow other' hother' => h row hrow other' (by simp [hother']),
      placeRow_append habsent]

theorem groupByHash_of_hash {rows : List TransactionRow} {hash : Bytes} (hne : rows ≠ [])
    (h : ∀ row ∈ rows, row.hash = hash) : groupByHash rows = [(hash, rows)] := by
  have hmem : ∀ other, other ∈ firstHashes rows ↔ other = hash := by
    intro other
    rw [mem_firstHashes]
    constructor
    · rintro ⟨row, hrow, rfl⟩
      exact h row hrow
    · rintro rfl
      obtain ⟨row, hrow⟩ := List.exists_mem_of_ne_nil rows hne
      exact ⟨row, hrow, h row hrow⟩
  have honly : firstHashes rows = [hash] :=
    List.perm_singleton.1 ((List.perm_ext_iff_of_nodup (nodup_firstHashes rows)
      (List.nodup_singleton hash)).2 fun other => by rw [hmem, List.mem_singleton])
  have hall : rowsOf rows hash = rows :=
    List.filter_eq_self.2 fun row hrow => decide_eq_true (h row hrow)
  rw [groupByHash_eq, honly, List.map_singleton, hall]

/-! ## Nothing is dropped -/

theorem perm_placeRow (row : TransactionRow) (groups : List (Bytes × List TransactionRow)) :
    ((placeRow row groups).flatMap Prod.snd).Perm (row :: groups.flatMap Prod.snd) := by
  induction groups with
  | nil => exact List.Perm.refl _
  | cons group groups ih =>
    unfold placeRow
    split
    · rw [List.flatMap_cons, List.flatMap_cons, List.append_assoc]
      exact List.perm_middle
    · rw [List.flatMap_cons, List.flatMap_cons]
      exact (ih.append_left _).trans List.perm_middle

theorem perm_groupByHash (rows : List TransactionRow) :
    ((groupByHash rows).flatMap Prod.snd).Perm rows := by
  induction rows using List.reverseRecOn with
  | nil => exact List.Perm.refl _
  | append_singleton rows row ih =>
    rw [groupByHash_concat]
    exact ((perm_placeRow row _).trans (ih.cons row)).trans (List.perm_append_singleton _ _).symm

theorem perm_flatMap_rowsOf (rows : List TransactionRow) :
    ((firstHashes rows).flatMap (rowsOf rows)).Perm rows := by
  have hperm := perm_groupByHash rows
  rwa [groupByHash_eq, List.flatMap_map] at hperm

theorem sum_rowsOf (f : TransactionRow → Int) (rows : List TransactionRow) :
    ((firstHashes rows).map fun hash => ((rowsOf rows hash).map f).sum).sum = (rows.map f).sum := by
  have hsum := ((perm_flatMap_rowsOf rows).map f).sum_eq
  rwa [List.map_flatMap, List.flatMap_def, List.sum_flatten, List.map_map] at hsum

end LedgerView.Assembler
