import Mathlib
import LedgerView.Proofs.Timeline
/-!
# Additions sort stably

What was added to a timeline stands in it in a stable order: nothing is lost or doubled, no
timestamp is less than one before it, and things of one time keep the order in which they were
added (`isStableSort_foldl_insert`). The same holds of any part of it (`IsStableSort.filter`).

An addition relies on this order. A timeline falls into the items that are not later than a new one
and, behind them, those that are, so that halving finds where the later ones begin
(`bisect_eq`), and that is where the new one goes (`place_eq_insertIdx`).
-/

namespace LedgerView.Timeline

/-! ## Searching by halving -/

section Bisection

variable {α : Type} {test : α → Bool} {items : List α} {point : Nat}

/-- The positions of the items that pass the test are those before a point. -/
def IsPartitionPoint (test : α → Bool) (items : List α) (point : Nat) : Prop :=
  ∀ i, items[i]?.any test ↔ i < point

/-- Look for the first item from `lo` to `hi` that fails the test, halving what is left by the item
in the middle. -/
def bisect (test : α → Bool) (items : List α) (lo hi : Nat) : Nat :=
  if lo < hi then
    let mid := (lo + hi) / 2
    if items[mid]?.any test then bisect test items (mid + 1) hi else bisect test items lo mid
  else lo
termination_by hi - lo

def partitionPoint (test : α → Bool) (items : List α) : Nat :=
  bisect test items 0 items.length

/-- The point stays between the two ends of what is left. -/
theorem bisect_eq (h : IsPartitionPoint test items point) {lo hi : Nat} (hlo : lo ≤ point)
    (hhi : point ≤ hi) : bisect test items lo hi = point := by
  fun_induction bisect test items lo hi with
  | case1 lo hi hlt mid hpasses ih => exact ih ((h mid).1 hpasses) hhi
  | case2 lo hi hlt mid hfails ih =>
    exact ih hlo (Nat.le_of_not_lt fun hmid => hfails ((h mid).2 hmid))
  | case3 lo hi hge => omega

theorem partitionPoint_eq (h : IsPartitionPoint test items point) :
    partitionPoint test items = point := by
  have hlength : ¬items.length < point := by
    intro hlt
    have hpasses := (h items.length).2 hlt
    rw [List.getElem?_eq_none (Nat.le_refl _)] at hpasses
    cases hpasses
  exact bisect_eq h (Nat.zero_le _) (Nat.le_of_not_lt hlength)

theorem isPartitionPoint_zero (h : ∀ x ∈ items, test x = false) :
    IsPartitionPoint test items 0 := by
  intro i
  cases hitem : items[i]? with
  | none => simp
  | some x => simp [h x (List.mem_of_getElem? hitem)]

theorem isPartitionPoint_cons {x : α} (hx : test x) :
    IsPartitionPoint test (x :: items) (point + 1) ↔ IsPartitionPoint test items point := by
  constructor
  · intro h i
    rw [← List.getElem?_cons_succ (a := x), h (i + 1), Nat.add_lt_add_iff_right]
  · intro h i
    cases i with
    | zero => simp [hx]
    | succ i => rw [List.getElem?_cons_succ, h i, Nat.add_lt_add_iff_right]

end Bisection

/-! ## The place of an addition -/

section Place

variable {α : Type} [Timed α] {x : α} {items : List α} {point : Nat}

def notLater (x y : α) : Bool :=
  timestamp y ≤ timestamp x

theorem notLater_iff {y : α} : notLater x y ↔ timestamp y ≤ timestamp x :=
  decide_eq_true_iff

theorem exists_isPartitionPoint (h : InOrder items) (x : α) :
    ∃ point, IsPartitionPoint (notLater x) items point := by
  induction items with
  | nil => exact ⟨0, isPartitionPoint_zero (by simp)⟩
  | cons head rest ih =>
    obtain ⟨hhead, hrest⟩ := List.pairwise_cons.1 h
    by_cases hle : timestamp head ≤ timestamp x
    · obtain ⟨point, hpoint⟩ := ih hrest
      exact ⟨point + 1, (isPartitionPoint_cons (notLater_iff.2 hle)).2 hpoint⟩
    · -- everything from here on is later than the new item
      refine ⟨0, isPartitionPoint_zero fun y hy => decide_eq_false fun hyx => ?_⟩
      rcases List.mem_cons.1 hy with rfl | hy
      · exact hle hyx
      · exact hle (Int64.le_trans (hhead y hy) hyx)

theorem isPartitionPoint_partitionPoint (h : InOrder items) (x : α) :
    IsPartitionPoint (notLater x) items (partitionPoint (notLater x) items) := by
  obtain ⟨point, hpoint⟩ := exists_isPartitionPoint h x
  rw [partitionPoint_eq hpoint]
  exact hpoint

theorem place_eq_insertIdx (h : IsPartitionPoint (notLater x) items point) :
    place x items = items.insertIdx point x := by
  induction items generalizing point with
  | nil =>
    have hzero : ¬0 < point := fun hlt => by simpa using (h 0).2 hlt
    rw [Nat.eq_zero_of_not_pos hzero]
    rfl
  | cons head rest ih =>
    rw [place]
    by_cases hle : timestamp head ≤ timestamp x
    · have hpos : 0 < point := (h 0).1 (notLater_iff.2 hle)
      obtain ⟨point, rfl⟩ := Nat.exists_eq_add_one_of_ne_zero (Nat.ne_of_gt hpos)
      rw [if_pos hle, ih ((isPartitionPoint_cons (notLater_iff.2 hle)).1 h),
        List.insertIdx_succ_cons]
    · have hzero : ¬0 < point := fun hlt => hle (notLater_iff.1 ((h 0).2 hlt))
      rw [if_neg hle, Nat.eq_zero_of_not_pos hzero, List.insertIdx_zero]

end Place

/-! ## Stable order -/

section StableSort

variable {α : Type} [Timed α] {added items : List α}

/-- The items are the things that were added, by their timestamps, and at one time in the order in
which they were added. -/
structure IsStableSort (added items : List α) : Prop where
  perm : items.Perm added
  inOrder : InOrder items
  stable : ∀ k, (items.filter fun x => timestamp x = k) = added.filter fun x => timestamp x = k

theorem perm_place (x : α) (items : List α) : (place x items).Perm (x :: items) := by
  induction items with
  | nil => exact List.Perm.refl _
  | cons head rest ih =>
    unfold place
    split
    · exact (ih.cons head).trans (List.Perm.swap x head rest)
    · exact List.Perm.refl _

theorem perm_foldl_insert (t : Timeline α) (added : List α) :
    (added.foldl insert t).items.Perm (t.items ++ added) := by
  induction added generalizing t with
  | nil =>
    rw [List.foldl_nil, List.append_nil]
  | cons x added ih =>
    rw [List.foldl_cons]
    exact (ih (t.insert x)).trans
      (((perm_place x t.items).append_right added).trans List.perm_middle.symm)

theorem isStableSort_foldl_insert (t : Timeline α) (added : List α) :
    IsStableSort (t.items ++ added) (added.foldl insert t).items where
  perm := perm_foldl_insert t added
  inOrder := (added.foldl insert t).inOrder
  stable := filter_foldl_insert t added

/-- What is kept of the items is the stable sort of what is kept of the things that were added. -/
theorem IsStableSort.filter (h : IsStableSort added items) (keep : α → Bool) :
    IsStableSort (added.filter keep) (items.filter keep) where
  perm := h.perm.filter keep
  inOrder := h.inOrder.sublist List.filter_sublist
  stable k := by rw [List.filter_comm, h.stable, List.filter_comm]

end StableSort

end LedgerView.Timeline
