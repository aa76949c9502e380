import Mathlib
import LedgerView.Timeline
/-!
# Timelines and additions

An addition finds its place by its timestamp alone. So additions of different timestamps may come
in either order (`insert_comm`), and who looks at some of the items only does not notice the
addition of another (`filter_place`). The items at one time stay in the order in which they were
added, so the latest item can be told from the additions (`latest?_foldl_insert`).
-/

namespace LedgerView.Timeline

variable {α : Type} [Timed α] {x y : α} {items : List α}

theorem ext_items {s t : Timeline α} (h : s.items = t.items) : s = t := by
  cases s
  cases t
  cases h
  rfl

theorem filter_place {p : α → Bool} (hx : p x = false) :
    (place x items).filter p = items.filter p := by
  induction items with
  | nil => rw [place, List.filter_cons_of_neg (by simp [hx])]
  | cons head rest ih =>
    unfold place
    split
    · rw [List.filter_cons, ih, List.filter_cons]
    · rw [List.filter_cons_of_neg (by simp [hx])]

theorem place_comm (h : timestamp x < timestamp y) :
    place x (place y items) = place y (place x items) := by
  have hle : timestamp x ≤ timestamp y := Int64.le_of_lt h
  have hnle : ¬timestamp y ≤ timestamp x := Int64.not_le.2 h
  induction items with
  | nil => simp only [place, if_pos hle, if_neg hnle]
  | cons head rest ih =>
    by_cases hx : timestamp head ≤ timestamp x
    · have hy : timestamp head ≤ timestamp y := Int64.le_trans hx hle
      simp only [place, if_pos hx, if_pos hy, ih]
    · by_cases hy : timestamp head ≤ timestamp y
      · simp only [place, if_neg hx, if_pos hy, if_pos hle]
      · simp only [place, if_neg hx, if_neg hy, if_neg hnle, if_pos hle]

theorem insert_comm (t : Timeline α) (h : timestamp x ≠ timestamp y) :
    (t.insert x).insert y = (t.insert y).insert x := by
  apply ext_items
  by_cases hlt : timestamp x < timestamp y
  · exact (place_comm hlt).symm
  · exact place_comm (Int64.lt_of_le_of_ne (Int64.not_lt.1 hlt) (Ne.symm h))

theorem foldl_of_step {σ ρ : Type} {step : σ → ρ → σ} (view : σ → Timeline α)
    {added? : ρ → Option α}
    (hstep : ∀ s r, view (step s r) = (added? r).toList.foldl insert (view s)) (s : σ)
    (run : List ρ) : view (run.foldl step s) = (run.filterMap added?).foldl insert (view s) := by
  induction run generalizing s with
  | nil => rfl
  | cons r run ih =>
    rw [List.foldl_cons, ih, hstep, List.filterMap_cons]
    cases added? r <;> rfl

/-! ## Changed items -/

section Map

variable {β : Type} [Timed β] {f : α → β} (hf : ∀ x, timestamp (f x) = timestamp x)

include hf in
theorem inOrder_map (h : InOrder items) : InOrder (items.map f) := by
  refine List.pairwise_map.2 (h.imp fun hle => ?_)
  rw [hf, hf]
  exact hle

/-- Every item changed, but not its timestamp. -/
def map (f : α → β) (hf : ∀ x, timestamp (f x) = timestamp x) (t : Timeline α) : Timeline β :=
  ⟨t.items.map f, inOrder_map hf t.inOrder⟩

theorem after_map (t : Timeline α) (start stop : Int64) :
    (t.map f hf).after start stop = (t.after start stop).map f := by
  simp only [after, map, List.filter_map, Function.comp_def, hf]

theorem between_map (t : Timeline α) (start stop : Int64) :
    (t.map f hf).between start stop = (t.between start stop).map f := by
  simp only [between, map, List.filter_map, Function.comp_def, hf]

include hf in
theorem place_map (x : α) (items : List α) :
    place (f x) (items.map f) = (place x items).map f := by
  induction items with
  | nil => rfl
  | cons head rest ih =>
    rw [List.map_cons, place, place, hf, hf, ih]
    split
    · rw [List.map_cons]
    · rw [List.map_cons, List.map_cons]

theorem map_insert (t : Timeline α) (x : α) :
    (t.insert x).map f hf = (t.map f hf).insert (f x) :=
  ext_items (place_map hf x t.items).symm

end Map

/-! ## The latest item -/

section Latest

variable {bound : Int64} {xs ys : List α}

theorem filter_le_eq_append {t : Timeline α} {start stop : Int64} (hle : start ≤ stop) :
    (t.items.filter fun x => timestamp x ≤ stop) =
      (t.items.filter fun x => timestamp x ≤ start) ++ t.after start stop := by
  obtain ⟨items, hinOrder⟩ := t
  simp only [after]
  induction items with
  | nil => rfl
  | cons head rest ih =>
    obtain ⟨hhead, hrest⟩ := List.pairwise_cons.1 hinOrder
    by_cases hearly : timestamp head ≤ start
    · have hwithin : timestamp head ≤ stop := Int64.le_trans hearly hle
      have hnot : ¬start < timestamp head := Int64.not_lt.2 hearly
      simp only [List.filter_cons, hwithin, hearly, hnot, false_and, decide_true, decide_false,
        if_true, Bool.false_eq_true, if_false, ih hrest, List.cons_append]
    · -- everything from here on is later than the start
      have hlater : ∀ x ∈ head :: rest, start < timestamp x := by
        intro x hx
        rcases List.mem_cons.1 hx with rfl | hx
        · exact Int64.not_le.1 hearly
        · exact Int64.lt_of_lt_of_le (Int64.not_le.1 hearly) (hhead x hx)
      have hnone : ((head :: rest).filter fun x => timestamp x ≤ start) = [] := by
        rw [List.filter_eq_nil_iff]
        intro x hx hle'
        exact Int64.not_le.2 (hlater x hx) (of_decide_eq_true hle')
      rw [hnone, List.nil_append]
      refine List.filter_congr fun x hx => ?_
      rw [decide_eq_decide, iff_and_self]
      exact fun _ => hlater x hx

theorem latest?_of_after_eq_nil {t : Timeline α} {start stop : Int64} (hle : start ≤ stop)
    (h : t.after start stop = []) : t.latest? stop = t.latest? start := by
  rw [latest?, filter_le_eq_append hle, h, List.append_nil, latest?]

theorem latest?_of_after_eq_singleton {t : Timeline α} {start stop : Int64}
    (hle : start ≤ stop) (h : t.after start stop = [x]) : t.latest? stop = some x := by
  rw [latest?, filter_le_eq_append hle, h, List.getLast?_concat]

/-- Of the things that were added, in this order, the latest up to a bound: none up to there is
later, and of those at its time it was added last. -/
structure IsLatest (added : List α) (bound : Int64) (x : α) : Prop where
  within : timestamp x ≤ bound
  greatest : ∀ y ∈ added, timestamp y ≤ bound → timestamp y ≤ timestamp x
  last : (added.filter fun y => timestamp y = timestamp x).getLast? = some x

theorem mem_of_isLatest (h : IsLatest xs bound x) : x ∈ xs :=
  (List.mem_filter.1 (List.mem_of_getLast? h.last)).1

theorem isLatest_unique (hx : IsLatest xs bound x) (hy : IsLatest xs bound y) : x = y := by
  have hsame : timestamp x = timestamp y :=
    Int64.le_antisymm (hy.greatest x (mem_of_isLatest hx) hx.within)
      (hx.greatest y (mem_of_isLatest hy) hy.within)
  have hlast := hx.last
  rw [hsame, hy.last] at hlast
  exact (Option.some.inj hlast).symm

theorem isLatest_congr
    (h : ∀ k, (xs.filter fun y => timestamp y = k) = ys.filter fun y => timestamp y = k) :
    IsLatest xs bound x ↔ IsLatest ys bound x := by
  have hmem : ∀ y, y ∈ xs ↔ y ∈ ys := by
    intro y
    have hy : ∀ zs : List α, y ∈ zs ↔ y ∈ zs.filter fun z => timestamp z = timestamp y := by
      intro zs
      rw [List.mem_filter, decide_eq_true_iff, and_iff_left rfl]
    rw [hy xs, hy ys, h]
  constructor
  · intro hx
    exact ⟨hx.within, fun y hy => hx.greatest y ((hmem y).2 hy), h _ ▸ hx.last⟩
  · intro hx
    exact ⟨hx.within, fun y hy => hx.greatest y ((hmem y).1 hy), h _ ▸ hx.last⟩

theorem isLatest_of_latest? {t : Timeline α} (h : t.latest? bound = some x) :
    IsLatest t.items bound x := by
  obtain ⟨before, hbefore⟩ := List.getLast?_eq_some_iff.1 h
  have hx := List.mem_filter.1 (List.mem_of_getLast? h)
  have hwithin : timestamp x ≤ bound := of_decide_eq_true hx.2
  have hinOrder : InOrder (before ++ [x]) :=
    hbefore ▸ t.inOrder.sublist List.filter_sublist
  refine ⟨hwithin, fun y hy hle => ?_, ?_⟩
  · have hmem : y ∈ before ++ [x] := hbefore ▸ List.mem_filter.2 ⟨hy, decide_eq_true hle⟩
    rcases List.mem_append.1 hmem with hmem | hmem
    · exact (List.pairwise_append.1 hinOrder).2.2 y hmem x (List.mem_singleton_self x)
    · rw [List.mem_singleton.1 hmem]
      exact Int64.le_refl _
  · -- the items at the time of the last one are all within the bound
    have hall : (t.items.filter fun y => timestamp y = timestamp x) =
        (t.items.filter fun y => timestamp y ≤ bound).filter fun y =>
          timestamp y = timestamp x := by
      rw [List.filter_filter]
      refine List.filter_congr fun y _ => ?_
      rw [← Bool.decide_and, decide_eq_decide, iff_self_and]
      intro hsame
      rw [hsame]
      exact hwithin
    rw [hall, hbefore, List.filter_append, List.filter_cons_of_pos (by simp), List.filter_nil,
      List.getLast?_concat]

theorem latest?_eq_some_iff {t : Timeline α} :
    t.latest? bound = some x ↔ IsLatest t.items bound x := by
  refine ⟨isLatest_of_latest?, fun h => ?_⟩
  cases hlatest : t.latest? bound with
  | none =>
    rw [latest?, List.getLast?_eq_none_iff, List.filter_eq_nil_iff] at hlatest
    exact absurd (decide_eq_true h.within) (hlatest x (mem_of_isLatest h))
  | some y => rw [isLatest_unique (isLatest_of_latest? hlatest) h]

theorem filter_place_timestamp (h : InOrder items) (k : Int64) :
    ((place x items).filter fun y => timestamp y = k) =
      (items ++ [x]).filter fun y => timestamp y = k := by
  induction items with
  | nil => rfl
  | cons head rest ih =>
    obtain ⟨hhead, hrest⟩ := List.pairwise_cons.1 h
    unfold place
    split
    · rw [List.cons_append, List.filter_cons, List.filter_cons, ih hrest]
    · next hnle =>
      have hlater : ∀ y ∈ head :: rest, timestamp x < timestamp y := by
        intro y hy
        rcases List.mem_cons.1 hy with rfl | hy
        · exact Int64.not_le.1 hnle
        · exact Int64.lt_of_lt_of_le (Int64.not_le.1 hnle) (hhead y hy)
      rw [List.filter_append]
      by_cases hx : timestamp x = k
      · have hnone : (head :: rest).filter (fun y => timestamp y = k) = [] := by
          rw [List.filter_eq_nil_iff]
          intro y hy hsame
          have hlt := hlater y hy
          rw [hx, of_decide_eq_true hsame] at hlt
          exact Int64.lt_irrefl hlt
        rw [List.filter_cons_of_pos (by simpa using hx), hnone, List.nil_append,
          List.filter_cons_of_pos (by simpa using hx), List.filter_nil]
      · have hnone : [x].filter (fun y => timestamp y = k) = [] :=
          List.filter_cons_of_neg (by simpa using hx)
        rw [List.filter_cons_of_neg (by simpa using hx), hnone, List.append_nil]

theorem filter_foldl_insert (t : Timeline α) (added : List α) (k : Int64) :
    ((added.foldl insert t).items.filter fun y => timestamp y = k) =
      (t.items ++ added).filter fun y => timestamp y = k := by
  induction added generalizing t with
  | nil => rw [List.foldl_nil, List.append_nil]
  | cons x added ih =>
    rw [List.foldl_cons, ih, List.filter_append, insert, filter_place_timestamp t.inOrder,
      ← List.filter_append, List.append_assoc, List.singleton_append]

theorem latest?_foldl_insert (t : Timeline α) (added : List α) :
    (added.foldl insert t).latest? bound = some x ↔ IsLatest (t.items ++ added) bound x := by
  rw [latest?_eq_some_iff]
  exact isLatest_congr (filter_foldl_insert t added)

end Latest

end LedgerView.Timeline
